import NetDiagram.Proofs.Footprint

/-!
# How arguments are spelled

Rendering keeps the expressions that it has found in a scope, and it may find an expression there
that was written long before, for another statement.  This file says how arguments are spelled
without any of that, as a relation between the document and the texts: `Spells d piece texts`.

The rules are those of the notation.  The items of an argument are quoted, left alone or followed; a
single item stands alone and several are put in brackets; a placeholder is a member of the object, a
unit or an inline layer is a call with its own arguments, and any other layer is its variable.
A piece with an argument that has no value, a reference to nothing, or a loop of references has no
spelling.

## Main statements

* `Spells.unique`: a piece has at most one spelling.
* `Renders.spells`: in a scope whose expressions are spelled by the document, a rendering gives
  the spelling, and leaves such a scope.
* `Spells.of_involves`: with a piece, all that it involves has a spelling.
-/

namespace NetDiagram.Flow

/-- How the texts of the items make up a value: one item stands alone, several are put in
brackets. -/
inductive ValueText : List String → String → Prop
  | single (item : String) : ValueText [item] item
  | several {items : List String} (length : items.length ≠ 1) :
      ValueText items ("[" ++ ", ".intercalate items ++ "]")

/-- The spelling of a piece, from the document alone. -/
inductive Spells (d : Document) : Piece → List String → Prop
  | noArgs : Spells d (.args []) []
  | arg {a : Argument} {rest : List Argument} {items texts : List String} {value : String}
      (set : a.isUnset = false) (first : Spells d (.items a (a.items.map Text.trim)) items)
      (whole : ValueText items value) (others : Spells d (.args rest) texts) :
      Spells d (.args (a :: rest)) ((a.name ++ "=" ++ value) :: texts)
  | noItems {a : Argument} : Spells d (.items a []) []
  | quoted {a : Argument} {item : String} {rest texts : List String} (kind : a.kind = .str)
      (others : Spells d (.items a rest) texts) :
      Spells d (.items a (item :: rest)) (Text.quote item :: texts)
  | verbatim {a : Argument} {item : String} {rest texts : List String}
      (kind : a.kind = .num ∨ a.kind = .seq ∨ a.kind = .bool)
      (others : Spells d (.items a rest) texts) :
      Spells d (.items a (item :: rest)) (item :: texts)
  | item {a : Argument} {item text : String} {rest texts : List String} (kind : a.kind = .id)
      (first : Spells d (.reference a (.ofText item)) [text])
      (others : Spells d (.items a rest) texts) :
      Spells d (.items a (item :: rest)) (text :: texts)
  | placeholder {a : Argument} {id : NodeId} {p : Placeholder}
      (get : d.get? id = some (.placeholder p)) :
      Spells d (.reference a id) ["self." ++ p.name]
  | unit {a : Argument} {id : NodeId} {u : UnitSpec} {args : List String}
      (get : d.get? id = some (.unit u)) (inner : Spells d (.args u.args) args) :
      Spells d (.reference a id)
        [u.source ++ "." ++ u.className ++ "(" ++ ", ".intercalate args ++ ")"]
  | inline {a : Argument} {id : NodeId} {l : Layer} {args : List String}
      (get : d.get? id = some (.layer l)) (mode : l.mode = .ca)
      (inner : Spells d (.args l.args) args) :
      Spells d (.reference a id)
        ["layers" ++ "." ++ l.className ++ "(" ++ ", ".intercalate args ++ ")"]
  | named {a : Argument} {id : NodeId} {l : Layer} (get : d.get? id = some (.layer l))
      (mode : l.mode ≠ .ca) : Spells d (.reference a id) [l.var]

/-- The text of a list of arguments is the given one. -/
def SpellsArgs (d : Document) (args : List Argument) (text : String) : Prop :=
  ∃ texts, Spells d (.args args) texts ∧ text = ", ".intercalate texts

variable {d : Document} {trail : List NodeId} {owner : Entity} {piece : Piece}
  {texts texts' : List String}

/-! ## At most one spelling -/

lemma valueText_iff {items : List String} {value : String} :
    ValueText items value ↔ value = bracket items := by
  constructor
  · rintro (_ | hlength)
    · rfl
    · match items, hlength with
      | [], _ => rfl
      | [_], h => simp at h
      | _ :: _ :: _, _ => rfl
  · rintro rfl
    match items with
    | [] => exact .several (by simp)
    | [x] => exact .single x
    | _ :: _ :: _ => exact .several (by simp)

/-- **A piece has at most one spelling.** -/
theorem Spells.unique (h : Spells d piece texts) (h' : Spells d piece texts') :
    texts = texts' := by
  induction h generalizing texts' with
  | noArgs =>
    cases h'
    rfl
  | arg _ _ whole _ ihfirst ihothers =>
    cases h' with
    | arg _ first' whole' others' =>
      obtain rfl := ihfirst first'
      rw [valueText_iff.1 whole, valueText_iff.1 whole', ihothers others']
  | noItems =>
    cases h'
    rfl
  -- The class of the argument tells which rule applies to its items.
  | quoted kind _ ih =>
    cases h' with
    | quoted _ others' => rw [ih others']
    | verbatim kind' => simp [kind] at kind'
    | item kind' => simp [kind] at kind'
  | verbatim kind _ ih =>
    cases h' with
    | quoted kind' => simp [kind'] at kind
    | verbatim _ others' => rw [ih others']
    | item kind' => simp [kind'] at kind
  | item kind _ _ ihfirst ihothers =>
    cases h' with
    | quoted kind' => simp [kind] at kind'
    | verbatim kind' => simp [kind] at kind'
    | item _ first' others' =>
      obtain rfl := List.singleton_inj.1 (ihfirst first')
      rw [ihothers others']
  -- The entity that is referred to tells which rule applies to the reference.
  | placeholder get =>
    cases h' <;> rename_i get' <;> cases get.symm.trans get'
    rfl
  | unit get _ ih =>
    cases h' with
    | unit get' inner' =>
      cases get.symm.trans get'
      rw [ih inner']
    | _ => simp_all
  | inline get mode _ ih =>
    cases h' with
    | inline get' _ inner' =>
      cases get.symm.trans get'
      rw [ih inner']
    | _ => simp_all
  | named get mode =>
    cases h' with
    | named get' _ =>
      cases get.symm.trans get'
      rfl
    | _ => simp_all

lemma SpellsArgs.iff_eq {args : List Argument} (h : Spells d (.args args) texts)
    (text : String) : SpellsArgs d args text ↔ text = ", ".intercalate texts := by
  constructor
  · rintro ⟨texts', h', rfl⟩
    rw [h.unique h']
  · rintro rfl
    exact ⟨texts, h, rfl⟩

/-! ## Renderings -/

/-- Every expression of the scope is the spelling of its entity. -/
def Scope.Spelled (d : Document) (s : Scope) : Prop :=
  ∀ id text, s.name? id = some text → ∀ a, Spells d (.reference a id) [text]

namespace Scope

variable {s s' : Scope}

lemma spelled_empty (d : Document) : Spelled d {} := by
  intro id text h
  simp [name?] at h

lemma Spelled.congr (h : s.Spelled d) (heq : ∀ x, s'.name? x = s.name? x) : s'.Spelled d := by
  intro id text hname
  exact h id text (by rw [← heq, hname])

lemma Spelled.bind (h : s.Spelled d) {id : NodeId} {text : String}
    (hspells : ∀ a, Spells d (.reference a id) [text]) : (s.bind id text).Spelled d := by
  intro x text' hname
  rw [name?_bind] at hname
  split at hname
  · rename_i hid
    rw [hid, ← Option.some.inj hname]
    exact hspells
  · exact h x text' hname

lemma Spelled.bind_layer (h : s.Spelled d) {l : Layer} (hget : d.get? l.id = some (.layer l))
    (hmode : l.mode ≠ .ca) : (s.bind l.id l.var).Spelled d :=
  h.bind fun _ => .named hget hmode

end Scope

/-- A unit or an inline layer is spelled as a call. -/
lemma Spells.of_inlineCall? {a : Argument} {id : NodeId} {e : Entity} {source className : String}
    (hget : d.get? id = some e) (hcall : inlineCall? e = some (source, className))
    (h : Spells d (.args e.args) texts) :
    Spells d (.reference a id) [callText source className texts] := by
  cases inlineCall?_eq_some_iff.1 hcall with
  | unit u => exact .unit hget h
  | inline mode => exact .inline hget mode h

lemma Spells.literal {a : Argument} {item : String} {rest : List String} (hk : a.kind ≠ .id)
    (h : Spells d (.items a rest) texts) :
    Spells d (.items a (item :: rest)) (literalText a.kind item :: texts) := by
  cases hkind : a.kind with
  | str => exact .quoted hkind h
  | num => exact .verbatim (Or.inl hkind) h
  | seq => exact .verbatim (Or.inr (Or.inl hkind)) h
  | bool => exact .verbatim (Or.inr (Or.inr hkind)) h
  | id => exact absurd hkind hk

/-- **The scope is transparent.**  If the expressions of the scope are spelled by the document, then
a successful rendering gives the spelling of the piece, and leaves such a scope. -/
theorem Renders.spells {s s' : Scope} (h : Renders d trail owner piece s texts s')
    (hs : s.Spelled d) : Spells d piece texts ∧ s'.Spelled d := by
  induction h with
  | noArgs => exact ⟨.noArgs, hs⟩
  | arg set _ _ ihfirst ihothers =>
    obtain ⟨hfirst, hs₁⟩ := ihfirst hs
    obtain ⟨hothers, hs₂⟩ := ihothers hs₁
    exact ⟨.arg set hfirst (valueText_iff.2 rfl) hothers, hs₂⟩
  | noItems => exact ⟨.noItems, hs⟩
  | literal kind _ ih =>
    obtain ⟨hothers, hs'⟩ := ih hs
    exact ⟨hothers.literal kind, hs'⟩
  | item kind _ _ ihfirst ihothers =>
    obtain ⟨hfirst, hs₁⟩ := ihfirst hs
    obtain ⟨hothers, hs₂⟩ := ihothers hs₁
    exact ⟨.item kind hfirst hothers, hs₂⟩
  -- What is known was spelled when it became known.
  | known name => exact ⟨hs _ _ name _, hs⟩
  | placeholder name get =>
    exact ⟨.placeholder get, (hs.congr (by simp)).bind fun _ => .placeholder get⟩
  | @forward _ _ _ _ _ l name get mode =>
    have hne : l.mode ≠ .ca := fun hca => by simp [hca, Mode.isMaterialized] at mode
    exact ⟨.named get hne, hs.congr (by simp)⟩
  | call name get inline _ _ ih =>
    obtain ⟨hinner, hs₁⟩ := ih (hs.congr (by simp))
    have hcall := fun a => hinner.of_inlineCall? (a := a) get inline
    exact ⟨hcall _, (hs₁.bind hcall).congr (by simp)⟩

/-! ## What is involved -/

lemma Spells.args_of_reference {a : Argument} {id : NodeId} {e : Entity}
    (h : Spells d (.reference a id) texts) (hget : d.get? id = some e)
    (hcall : (inlineCall? e).isSome) : ∃ args, Spells d (.args e.args) args := by
  cases h with
  | placeholder get =>
    cases get.symm.trans hget
    simp [inlineCall?] at hcall
  | unit get inner =>
    cases get.symm.trans hget
    exact ⟨_, inner⟩
  | inline get _ inner =>
    cases get.symm.trans hget
    exact ⟨_, inner⟩
  | named get mode =>
    cases get.symm.trans hget
    simp [inlineCall?_layer_of_ne_ca mode] at hcall

/-- **Nothing is left out.**  If a piece has a spelling, then so has all that it involves. -/
theorem Spells.of_involves (h : Spells d piece texts) {x : NodeId}
    (hx : Involves d piece.references x) : ∃ b text, Spells d (.reference b x) [text] := by
  induction h with
  | noArgs => simp [Involves, Piece.references, NetDiagram.references] at hx
  | arg _ _ _ _ ihfirst ihothers =>
    rw [Piece.references_args_cons, involves_append] at hx
    exact hx.elim ihfirst ihothers
  | noItems => simp [Involves, Piece.references] at hx
  | quoted kind _ _ => simp [Involves, Piece.references, kind] at hx
  | verbatim kind _ _ =>
    rcases kind with kind | kind | kind <;> simp [Involves, Piece.references, kind] at hx
  | item kind _ _ ihfirst ihothers =>
    rw [Piece.references_items_cons kind, involves_append] at hx
    exact hx.elim ihfirst ihothers
  | @placeholder a _ _ get =>
    obtain rfl := eq_of_reaches_leaf get rfl (involves_singleton.1 hx)
    exact ⟨a, _, .placeholder get⟩
  | @named a _ _ get mode =>
    obtain rfl := eq_of_reaches_leaf get (inlineCall?_layer_of_ne_ca mode) (involves_singleton.1 hx)
    exact ⟨a, _, .named get mode⟩
  -- What a call leads to is the call itself, or it is involved in its arguments.
  | @unit a _ _ _ get inner ih =>
    rcases (reaches_call_iff get rfl).1 (involves_singleton.1 hx) with rfl | hx
    · exact ⟨a, _, .unit get inner⟩
    · exact ih hx
  | @inline a _ l _ get mode inner ih =>
    have hcall : (inlineCall? (.layer l)).isSome := by simp [inlineCall?, mode, Mode.isMaterialized]
    rcases (reaches_call_iff get hcall).1 (involves_singleton.1 hx) with rfl | hx
    · exact ⟨a, _, .inline get mode inner⟩
    · exact ih hx

lemma Spells.isUnset_eq_false {args : List Argument} (h : Spells d (.args args) texts)
    {a : Argument} (ha : a ∈ args) : a.isUnset = false := by
  induction args generalizing texts with
  | nil => simp at ha
  | cons b rest ih =>
    cases h with
    | arg set _ _ others =>
      rcases List.mem_cons.1 ha with rfl | hrest
      · exact set
      · exact ih others hrest

end NetDiagram.Flow
