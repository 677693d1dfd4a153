import Mathlib.Data.List.Forall2
import NetDiagram.Proofs.Evaluation

/-!
# String literals of the generated module

A text argument is free text, and it is written into the generated module as a string literal.
Nothing in the text may end the literal before its closing quote, or make the literal run on behind
it.  This file reads literals back: `readLiteral` takes a literal from the beginning of a text and
leaves what follows, and `readValue` does the same for the value of an argument, which is one
literal or a list of them in brackets.

## Main statements

* `readLiteralTail_escape`: an escaped text is read up to the quote behind it, and not further.
* `readLiterals_escape`: a list of literals is read up to its bracket.
* `Flow.Renders.readsBack`: of every text argument that is rendered the items are read back.
-/

namespace NetDiagram

namespace Text

/-! ## Escaping in two passes -/

/-- Puts the given characters in the place of every occurrence of a character. -/
def replaceChar (old : Char) (new cs : List Char) : List Char :=
  cs.flatMap fun c => if c = old then new else [c]

/-- Escaping is replacing backslashes and then quotes.  In the other order the backslashes that
stand before quotes would be replaced too. -/
lemma escape_eq_replaceChar (cs : List Char) :
    escape cs = replaceChar '"' ['\\', '"'] (replaceChar '\\' ['\\', '\\'] cs) := by
  induction cs with
  | nil => rfl
  | cons c cs ih =>
    unfold replaceChar at ih ⊢
    rw [List.flatMap_cons, List.flatMap_append, ← ih, escape]
    by_cases hbackslash : c = '\\'
    · simp [hbackslash]
    · by_cases hquote : c = '"' <;> simp [hbackslash, hquote]

/-! ## Reading a literal -/

/-- Reads a string literal from behind its opening quote: the characters of its value, and what
follows its closing quote.  A backslash takes the next character as it is. -/
def readLiteralTail : List Char → Option (List Char × List Char)
  | [] => none
  | '"' :: rest => some ([], rest)
  | '\\' :: [] => none
  | '\\' :: c :: rest => (readLiteralTail rest).map fun (value, after) => (c :: value, after)
  | c :: rest => (readLiteralTail rest).map fun (value, after) => (c :: value, after)

/-- Reads a string literal at the beginning of a text: its value, and what follows it. -/
def readLiteral (text : String) : Option (String × String) :=
  match text.toList with
  | '"' :: cs =>
    (readLiteralTail cs).map fun (value, after) => (String.ofList value, String.ofList after)
  | _ => none

/-- **An escaped text is read up to the quote behind it.** -/
theorem readLiteralTail_escape (cs rest : List Char) :
    readLiteralTail (escape cs ++ '"' :: rest) = some (cs, rest) := by
  induction cs with
  | nil => rfl
  | cons c cs ih =>
    by_cases hspecial : c = '\\' ∨ c = '"'
    · have hescape : escape (c :: cs) = '\\' :: c :: escape cs := by
        rw [escape, if_pos (by simpa using hspecial)]
      rw [hescape, List.cons_append, List.cons_append, readLiteralTail, ih, Option.map_some]
    · obtain ⟨hbackslash, hquote⟩ := not_or.1 hspecial
      have hescape : escape (c :: cs) = c :: escape cs := by simp [escape, hbackslash, hquote]
      -- Neither special character is in the way, so only the last equation of the reader applies.
      rw [hescape, List.cons_append, readLiteralTail, ih, Option.map_some] <;> simp_all

lemma toList_quote (s : String) : (quote s).toList = '"' :: (escape s.toList ++ ['"']) := by
  rw [quote, String.toList_ofList]

lemma readLiteral_quote (v rest : String) : readLiteral (quote v ++ rest) = some (v, rest) := by
  have htext : (quote v ++ rest).toList = '"' :: (escape v.toList ++ '"' :: rest.toList) := by
    simp [toList_quote]
  simp [readLiteral, htext, readLiteralTail_escape]

lemma quote_injective : Function.Injective quote := by
  intro v w h
  have hv := readLiteral_quote v ""
  rw [h, readLiteral_quote w ""] at hv
  exact (Prod.mk.inj (Option.some.inj hv)).1.symm

/-! ## Reading the value of an argument -/

lemma length_lt_of_readLiteralTail {cs value after : List Char}
    (h : readLiteralTail cs = some (value, after)) : after.length < cs.length := by
  fun_induction readLiteralTail cs generalizing value with
  | case1 => simp at h
  | case2 rest =>
    obtain ⟨-, rfl⟩ := Prod.mk.inj (Option.some.inj h)
    simp
  | case3 => simp at h
  -- An escape takes two characters, any other step one.
  | case4 c rest ih =>
    obtain ⟨⟨value', after'⟩, hrest, heq⟩ := Option.map_eq_some_iff.1 h
    obtain ⟨-, rfl⟩ := Prod.mk.inj heq
    have hlt := ih hrest
    simp only [List.length_cons]
    omega
  | case5 c rest _ _ _ ih =>
    obtain ⟨⟨value', after'⟩, hrest, heq⟩ := Option.map_eq_some_iff.1 h
    obtain ⟨-, rfl⟩ := Prod.mk.inj heq
    have hlt := ih hrest
    simp only [List.length_cons]
    omega

/-- Reads string literals with commas between them, from behind the opening quote of the first:
their values, and what follows the closing bracket. -/
def readLiterals (cs : List Char) : Option (List String × List Char) :=
  match _read : readLiteralTail cs with
  | some (value, ']' :: after) => some ([String.ofList value], after)
  | some (value, ',' :: ' ' :: '"' :: rest) =>
    (readLiterals rest).map fun (values, after) => (String.ofList value :: values, after)
  | _ => none
termination_by cs.length
decreasing_by
  have hlt := length_lt_of_readLiteralTail _read
  simp only [List.length_cons] at hlt
  omega

/-- Reads the value of a text argument at the beginning of a text: its items, and what follows.
The value is one literal, or several in brackets. -/
def readValue (text : String) : Option (List String × String) :=
  match text.toList with
  | '"' :: cs =>
    (readLiteralTail cs).map fun (value, after) => ([String.ofList value], String.ofList after)
  | '[' :: '"' :: cs =>
    (readLiterals cs).map fun (values, after) => (values, String.ofList after)
  | _ => none

/-- The literals that follow the first of a list, each behind a comma. -/
def moreLiterals (items : List String) : List Char :=
  items.flatMap fun item => ',' :: ' ' :: (quote item).toList

lemma toList_intercalate_quote (item : String) (items : List String) :
    (", ".intercalate ((item :: items).map quote)).toList =
      (quote item).toList ++ moreLiterals items := by
  induction items generalizing item with
  | nil => simp [moreLiterals]
  | cons next items ih =>
    rw [List.map_cons, List.map_cons, String.intercalate_cons_cons, ← List.map_cons,
      String.toList_append, String.toList_append, ih next]
    simp [moreLiterals]

/-- **A list of literals is read up to its bracket.** -/
theorem readLiterals_escape (item : String) (items : List String) (rest : List Char) :
    readLiterals (escape item.toList ++ '"' :: (moreLiterals items ++ ']' :: rest)) =
      some (item :: items, rest) := by
  induction items generalizing item with
  | nil =>
    have hmore : moreLiterals [] ++ ']' :: rest = ']' :: rest := rfl
    rw [hmore, readLiterals, readLiteralTail_escape]
    simp
  | cons next items ih =>
    have hmore : moreLiterals (next :: items) ++ ']' :: rest =
        ',' :: ' ' :: '"' ::
          (escape next.toList ++ '"' :: (moreLiterals items ++ ']' :: rest)) := by
      simp [moreLiterals, toList_quote]
    rw [hmore, readLiterals, readLiteralTail_escape]
    simp [ih next]

lemma readValue_bracket {items : List String} (hitems : items ≠ []) (rest : String) :
    readValue (Flow.bracket (items.map quote) ++ rest) = some (items, rest) := by
  match items, hitems with
  -- A single item has no brackets, so it is told from a list by its first character.
  | [item], _ =>
    have htext : (quote item ++ rest).toList =
        '"' :: (escape item.toList ++ '"' :: rest.toList) := by
      simp [toList_quote]
    change readValue (quote item ++ rest) = some ([item], rest)
    rw [readValue, htext]
    simp [readLiteralTail_escape]
  | item :: next :: items, _ =>
    have htext :
        ("[" ++ ", ".intercalate ((item :: next :: items).map quote) ++ "]" ++ rest).toList =
          '[' :: '"' :: (escape item.toList ++
            '"' :: (moreLiterals (next :: items) ++ ']' :: rest.toList)) := by
      rw [String.toList_append, String.toList_append, String.toList_append,
        toList_intercalate_quote, toList_quote]
      simp
    change readValue ("[" ++ ", ".intercalate ((item :: next :: items).map quote) ++ "]" ++ rest) =
      some (item :: next :: items, rest)
    rw [readValue, htext]
    simp [readLiterals_escape]

end Text

lemma Argument.items_ne_nil (a : Argument) : a.items ≠ [] := by
  simp [items, Text.splitAt, Text.segments_ne_nil]

namespace Flow

variable {d : Document} {trail : List NodeId} {owner : Entity}

/-! ## Text arguments -/

/-- The text of an argument is its name and a value from which its items are read back, whatever
follows. -/
def ReadsBack (a : Argument) (text : String) : Prop :=
  ∃ value, text = a.name ++ "=" ++ value ∧
    ∀ rest, Text.readValue (value ++ rest) = some (a.items.map Text.trim, rest)

lemma Renders.items_quote {a : Argument} {items texts : List String} {s s' : Scope}
    (h : Renders d trail owner (.items a items) s texts s') (hk : a.kind = .str) :
    texts = items.map Text.quote := by
  induction items generalizing texts with
  | nil =>
    cases h
    rfl
  | cons item items ih =>
    cases h with
    | literal _ others => rw [ih others, List.map_cons, hk, literalText]
    | item hid => simp [hk] at hid

/-- **Text arguments are read back**, each from its own place among the arguments. -/
theorem Renders.readsBack {args : List Argument} {texts : List String} {s s' : Scope}
    (h : Renders d trail owner (.args args) s texts s') :
    List.Forall₂ (fun a text => a.kind = .str → ReadsBack a text) args texts := by
  induction args generalizing s texts with
  | nil =>
    cases h
    exact .nil
  | cons a args ih =>
    cases h with
    | @arg _ _ _ _ _ _ _ items _ _ first others =>
      refine .cons (fun hk => ⟨bracket items, rfl, fun rest => ?_⟩) (ih others)
      rw [first.items_quote hk]
      exact Text.readValue_bracket (by simpa using a.items_ne_nil) rest

/-- **Literals cannot be escaped from.**  A literal is the text between quotes, with its backslashes
and then its quotes replaced.  Read at the beginning of any text, it gives the value that was
written and leaves exactly what follows; so different values have different literals.  In every
rendering of arguments, at whatever depth, the items of each text argument are read back from its
place, and what stands behind the argument is left. -/
theorem literals_read_back :
    (∀ v : String, (Text.quote v).toList = '"' :: (Text.replaceChar '"' ['\\', '"']
      (Text.replaceChar '\\' ['\\', '\\'] v.toList) ++ ['"'])) ∧
    (∀ v rest : String, Text.readLiteral (Text.quote v ++ rest) = some (v, rest)) ∧
    Function.Injective Text.quote ∧
    ∀ (d : Document) (trail : List NodeId) (owner : Entity) (args : List Argument)
      (s s' : Scope) (texts : List String),
      (renderArgs d trail owner args).run s = .ok (texts, s') →
        List.Forall₂ (fun a text => a.kind = .str → ReadsBack a text) args texts := by
  refine ⟨fun v => ?_, Text.readLiteral_quote, Text.quote_injective,
    fun d trail owner args s s' texts hrun => ?_⟩
  · rw [Text.toList_quote, Text.escape_eq_replaceChar]
  · exact (Renders.of_renderArgs hrun).readsBack

/-- A layer with values that end in a backslash, hold the text of another argument, or are a list of
quotes and backslashes. -/
def trickyLayer : Layer where
  id := .ofText "l"
  var := "x"
  className := "Lambda"
  args := [⟨"path", "C:\\", .str⟩, ⟨"name", "a\", units=\"1", .str⟩, ⟨"marks", "\"; \\\";", .str⟩]

/-- A document with this layer. -/
def tricky : Document where
  entities := [.layer trickyLayer]
  nodup := by decide +kernel

/-- The arguments of `trickyLayer` as they are written. -/
def trickyTexts : List String :=
  ["path=\"C:\\\\\"", "name=\"a\\\", units=\\\"1\"", "marks=[\"\\\"\", \"\\\\\\\"\", \"\"]"]

/-- The arguments of `trickyLayer` are rendered, and the items of each are read back. -/
theorem literals_read_back_tricky :
    (renderArgs tricky [] (.layer trickyLayer) trickyLayer.args).run {} = .ok (trickyTexts, {}) ∧
      List.Forall₂ (fun a text => a.kind = .str → ReadsBack a text) trickyLayer.args
        trickyTexts := by
  have hrun : (Piece.args trickyLayer.args).evaluate tricky 9 [] (.layer trickyLayer) {} =
      some (trickyTexts, {}) := by
    rfl
  have hrender := (Piece.renders_of_evaluate hrun).run
  exact ⟨hrender, literals_read_back.2.2.2 _ _ _ _ _ _ _ hrender⟩

end Flow

end NetDiagram
