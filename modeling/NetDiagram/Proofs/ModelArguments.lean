import NetDiagram.Proofs.IdLists
import NetDiagram.Proofs.Places
import NetDiagram.Proofs.Uses

/-!
# The arguments of a model

The arguments of a model are set one after the other, and may be set again: an argument that is set
again stands where it stood, with its new value.  Inputs and outputs are arguments too, and the
declaration of a model may list them twice, as arguments and in fields of their own.

What such a history comes to is a map with an order (`Model.Holds`).  Every name occurs once, names
stand in the order in which they were set first, and each name has the value that was set last.

## Main statements

* `Model.Holds.apply`: what one more setting comes to.
* `holds_configure`: a model that is set up from scratch.
* `Declaration.exists_settings_of_model`: the settings that a declaration stands for.
* `Flow.Spells.exists_values`: the text of a list of arguments has one keyword for each of them.
-/

namespace NetDiagram

/-! ## Histories -/

/-- A way to set an argument of a model. -/
inductive Setting where
  | arg (a : Argument)
  | inputs (ids : List NodeId)
  | outputs (ids : List NodeId)

namespace Setting

/-- The argument that is set. -/
def argument : Setting → Argument
  | arg a => a
  | inputs ids => .ofIds Model.inputsName ids
  | outputs ids => .ofIds Model.outputsName ids

/-- The name that is set. -/
def name (s : Setting) : String :=
  s.argument.name

/-- Sets the argument. -/
def apply (m : Model) : Setting → Model
  | arg a => m.withArg a
  | inputs ids => m.withInputs ids
  | outputs ids => m.withOutputs ids

lemma apply_eq (m : Model) (s : Setting) : apply m s = m.withArg s.argument := by
  cases s <;> rfl

end Setting

/-- The model that is set up by the given settings, one after the other. -/
def configure (base : Node) (var : String) (settings : List Setting) : Model :=
  settings.foldl Setting.apply { toNode := base, var := var }

/-- The setting that is in force for a name: the last one of that name. -/
def inForce (settings : List Setting) (name : String) : Option Argument :=
  (settings.reverse.find? (·.name == name)).map Setting.argument

lemma inForce_concat (settings : List Setting) (s : Setting) (name : String) :
    inForce (settings ++ [s]) name =
      if s.name = name then some s.argument else inForce settings name := by
  rw [inForce, List.reverse_append, List.reverse_singleton, List.singleton_append, List.find?_cons]
  by_cases h : s.name = name
  · simp [h]
  · have hne : (s.name == name) = false := by simpa using h
    simp only [hne, h, if_false]
    rfl

lemma inForce_append (settings more : List Setting) (name : String) :
    inForce (settings ++ more) name = (inForce more name).or (inForce settings name) := by
  unfold inForce
  rw [List.reverse_append, List.find?_append]
  cases more.reverse.find? (·.name == name) <;> rfl

/-! ## Maps with an order -/

/-- The arguments of the model are what the settings come to. -/
structure Model.Holds (m : Model) (settings : List Setting) : Prop where
  /-- Names stand in the order in which they were set first. -/
  names : m.args.map (·.name) = (settings.map (·.name)).eraseDups
  /-- Each name has the value that was set last. -/
  arg? : ∀ name, m.arg? name = inForce settings name

lemma map_name_setArgument (a : Argument) (args : List Argument) :
    (setArgument a args).map (·.name) = Flow.insertNew a.name (args.map (·.name)) := by
  unfold Flow.insertNew
  induction args with
  | nil => rfl
  | cons b rest ih =>
    rw [setArgument]
    by_cases hb : b.name = a.name
    · simp [hb]
    · have hne : (b.name == a.name) = false := by simpa using hb
      simp only [hne, Bool.false_eq_true, if_false, List.map_cons, ih, List.mem_cons,
        Ne.symm hb, false_or]
      split <;> rfl

namespace Model.Holds

variable {m : Model} {settings more : List Setting}

/-- **One more setting.** -/
theorem apply (h : m.Holds settings) (s : Setting) : (s.apply m).Holds (settings ++ [s]) where
  names := by
    rw [Setting.apply_eq, Model.withArg, map_name_setArgument, h.names, List.map_append,
      List.map_singleton, Flow.eraseDups_concat]
    rfl
  arg? name := by
    rw [Setting.apply_eq, Model.arg?_withArg, h.arg?, inForce_concat]
    rfl

lemma foldl (h : m.Holds settings) (more : List Setting) :
    (more.foldl Setting.apply m).Holds (settings ++ more) := by
  induction more generalizing m settings with
  | nil => simpa using h
  | cons s rest ih => simpa using ih (h.apply s)

lemma nodup (h : m.Holds settings) : (m.args.map (·.name)).Nodup := by
  rw [h.names]
  exact Flow.nodup_eraseDups _

lemma arg?_name (h : m.Holds settings) {a : Argument} (ha : a ∈ m.args) :
    m.arg? a.name = some a := by
  have hsome : (m.arg? a.name).isSome := List.find?_isSome.2 ⟨a, ha, by simp⟩
  obtain ⟨b, hb⟩ := Option.isSome_iff_exists.1 hsome
  have hname : b.name = a.name := by simpa using List.find?_some hb
  rw [hb, List.inj_on_of_nodup_map h.nodup (List.mem_of_find?_eq_some hb) ha hname]

end Model.Holds

/-- **A model that is set up from scratch** holds what was set. -/
theorem holds_configure (base : Node) (var : String) (settings : List Setting) :
    (configure base var settings).Holds settings := by
  have hnew : Model.Holds { toNode := base, var := var } [] := ⟨rfl, fun _ => rfl⟩
  exact hnew.foldl settings

/-- Settings of names that have been set are made in place. -/
lemma map_name_configure_append (base : Node) (var : String) {settings more : List Setting}
    (h : more.map (·.name) ⊆ settings.map (·.name)) :
    (configure base var (settings ++ more)).args.map (·.name) =
      (configure base var settings).args.map (·.name) := by
  rw [(holds_configure base var _).names, (holds_configure base var _).names, List.map_append,
    Flow.eraseDups_append_of_subset h]

/-! ## Declarations -/

namespace Declaration

open Record

/-- The settings that a declaration stands for: its arguments first, then its inputs and its
outputs, if it lists them apart. -/
def settings (args : List Argument) (inputs outputs : Option (List NodeId)) : List Setting :=
  args.map .arg ++ (inputs.toList.map .inputs ++ outputs.toList.map .outputs)

/-- What the declaration of a model says about its arguments. -/
def ReadsModel (node : Toml.Node) (args : List Argument) (inputs outputs : Option (List NodeId)) :
    Prop :=
  ∃ fs, modelShape.read node = .ok fs ∧ fs.getD "args" (list argument) [] = .ok args ∧
    fs.get? "inputs" nodeIds = .ok inputs ∧ fs.get? "outputs" nodeIds = .ok outputs

lemma makeModel_eq (base : Node) (var : String) (args : List Argument)
    (inputs outputs : Option (List NodeId)) :
    makeModel base var args inputs outputs =
      configure base var (settings args inputs outputs) := by
  have hargs : args.foldl Model.withArg { toNode := base, var := var } =
      (args.map Setting.arg).foldl Setting.apply { toNode := base, var := var } := by
    rw [List.foldl_map]
    rfl
  rw [makeModel, configure, settings, List.foldl_append, ← hargs]
  cases inputs <;> cases outputs <;> rfl

lemma exists_settings_of_model {node : Toml.Node} {m : Model} (h : model node = .ok (.model m)) :
    ∃ args inputs outputs, ReadsModel node args inputs outputs ∧
      ∃ base var, m = configure base var (settings args inputs outputs) := by
  simp only [model, bind_eq_ok_iff, Except.ok.injEq, Entity.model.injEq] at h
  obtain ⟨fs, hfs, base, -, var, -, args, hargs, inputs, hinputs, outputs, houtputs, rfl⟩ := h
  exact ⟨args, inputs, outputs, ⟨fs, hfs, hargs, hinputs, houtputs⟩, base, var,
    makeModel_eq base var args inputs outputs⟩

/-- The field for a role takes precedence over arguments of that name. -/
lemma inForce_role {args : List Argument} {inputs outputs ids : Option (List NodeId)} {name : String}
    (h : (name, ids) ∈ [(Model.inputsName, inputs), (Model.outputsName, outputs)]) :
    inForce (settings args inputs outputs) name =
      (ids.map (.ofIds name)).or (inForce (args.map .arg) name) := by
  rw [settings, inForce_append]
  congr 1
  simp only [List.mem_cons, Prod.mk.injEq, List.not_mem_nil, or_false] at h
  rcases h with ⟨rfl, rfl⟩ | ⟨rfl, rfl⟩
  · cases ids <;> cases outputs <;> rfl
  · cases inputs <;> cases ids <;> rfl

lemma exists_model_of_parse {source : String} {d : Document} (h : Document.parse source = .ok d)
    {m : Model} (hm : .model m ∈ d.entities) : ∃ node, model node = .ok (.model m) := by
  obtain ⟨node, -, hall⟩ := Flow.exists_element_of_parse h
  obtain ⟨x, -, hx⟩ := hall _ hm
  obtain ⟨decode, hkind, hread⟩ := hx.read
  have htag : x.tag = "model" := hx.tag.symm
  obtain rfl : decode = model := by simpa [kinds, htag] using hkind
  exact ⟨x.value, hread⟩

end Declaration

/-! ## Statements -/

namespace Flow

variable {d : Document}

/-- The text of the value of an argument. -/
def Writes (d : Document) (a : Argument) (value : String) : Prop :=
  ∃ items, Spells d (.items a (a.items.map Text.trim)) items ∧ ValueText items value

lemma Spells.exists_values {args : List Argument} {texts : List String}
    (h : Spells d (.args args) texts) :
    ∃ values, List.Forall₂ (Writes d) args values ∧
      texts = List.zipWith (fun a value => a.name ++ "=" ++ value) args values := by
  induction args generalizing texts with
  | nil =>
    cases h
    exact ⟨[], .nil, rfl⟩
  | cons a rest ih =>
    cases h with
    | arg set first whole others =>
      obtain ⟨values, hvalues, rfl⟩ := ih others
      exact ⟨_ :: values, .cons ⟨_, first, whole⟩ hvalues, rfl⟩

/-- The arguments of a model are written from the settings in force, each name once. -/
structure Keywords (d : Document) (m : Model) (settings : List Setting) (text : String) :
    Prop where
  nodup : (m.args.map (·.name)).Nodup
  values : ∃ values, List.Forall₂
    (fun a value => inForce settings a.name = some a ∧ Writes d a value) m.args values ∧
      text = ", ".intercalate (List.zipWith (fun a value => a.name ++ "=" ++ value) m.args values)

lemma Keywords.of_spellsArgs {m : Model} {settings : List Setting} {text : String}
    (h : m.Holds settings) (hspells : SpellsArgs d m.args text) :
    Keywords d m settings text where
  nodup := h.nodup
  values := by
    obtain ⟨texts, htexts, rfl⟩ := hspells
    obtain ⟨values, hvalues, rfl⟩ := htexts.exists_values
    refine ⟨values, ?_, rfl⟩
    rw [List.forall₂_and_left]
    exact ⟨fun a ha => by rw [← h.arg?, h.arg?_name ha], hvalues⟩

end Flow

/-- **The arguments of a model are a map with an order.**  A model that is set up by any sequence of
settings has each name once, in the order in which the names were set first, and with what was set
last; setting a name that has been set before moves nothing.  A model that is declared in a text is
such a model, and where a field lists its inputs or outputs, arguments of that name have no effect.
In the statement of such a model no keyword is repeated, and the value of a keyword is that of the
argument that is found under its name. -/
theorem model_arguments_ordered :
    (∀ (base : Node) (var : String) (settings : List Setting),
      (configure base var settings).Holds settings ∧
        ((configure base var settings).args.map (·.name)).Nodup) ∧
    (∀ (base : Node) (var : String) (settings more : List Setting),
      more.map (·.name) ⊆ settings.map (·.name) →
        (configure base var (settings ++ more)).args.map (·.name) =
          (configure base var settings).args.map (·.name)) ∧
    (∀ (node : Toml.Node) (m : Model), Declaration.model node = .ok (.model m) →
      ∃ args inputs outputs, Declaration.ReadsModel node args inputs outputs ∧
        m.Holds (Declaration.settings args inputs outputs) ∧
        m.inputs? = (inputs.map (.ofIds Model.inputsName)).or
          (inForce (args.map .arg) Model.inputsName) ∧
        m.outputs? = (outputs.map (.ofIds Model.outputsName)).or
          (inForce (args.map .arg) Model.outputsName)) ∧
    (∀ (source : String) (d : Document), Document.parse source = .ok d →
      ∀ m, .model m ∈ d.entities → ∃ node, Declaration.model node = .ok (.model m)) ∧
    ∀ (d : Document) (c : Flow.Compilation), Flow.compile d = .ok c →
      ∃ nodes, Flow.Emission d nodes c ∧
        ∀ (i : Nat) (m : Model) (st : Flow.Statement), nodes[i]? = some (.model m) →
          c.statements[i]? = some st →
            ∀ settings, m.Holds settings → Flow.Keywords d m settings st.args := by
  refine ⟨fun base var settings => ?_, fun base var settings more => ?_, fun node m hm => ?_,
    fun source d hd m hm => ?_, fun d c hc => ?_⟩
  · exact ⟨holds_configure base var settings, (holds_configure base var settings).nodup⟩
  · exact map_name_configure_append base var
  · obtain ⟨args, inputs, outputs, hread, base, var, rfl⟩ :=
      Declaration.exists_settings_of_model hm
    -- The fields for the roles are set after the arguments, so they are in force.
    have hholds := holds_configure base var (Declaration.settings args inputs outputs)
    refine ⟨args, inputs, outputs, hread, hholds, ?_, ?_⟩
    · rw [Model.inputs?, hholds.arg?, Declaration.inForce_role List.mem_cons_self]
    · rw [Model.outputs?, hholds.arg?,
        Declaration.inForce_role (List.mem_cons_of_mem _ List.mem_cons_self)]
  · exact Declaration.exists_model_of_parse hd hm
  · obtain ⟨nodes, hnodes, hspells⟩ := Flow.exists_spelled_emission hc
    exact ⟨nodes, hnodes, fun i m st hi hst settings hholds =>
      .of_spellsArgs hholds (hspells i _ st hi hst)⟩

/-- A layer and a model, as arrays of their fields.  The model lists its inputs and outputs in
fields, and in arguments too, the outputs twice. -/
def resetText : String :=
  "layer=[[1,'x','I','IO',true,'','2']]\n" ++
    "model=[[2,'m','1','1',[['outputs','7'],['dtype','f'],['inputs','8'],['outputs','9']]]]"

lemma exists_compile_resetText :
    ∃ d c m, Document.parse resetText = .ok d ∧ Flow.compile d = .ok c ∧ d.models = [m] ∧
      m.args = [⟨"outputs", "1", .id⟩, ⟨"dtype", "f", .str⟩, ⟨"inputs", "1", .id⟩] ∧
      c.statements = [⟨"x", "layers", "I", "", none⟩,
        ⟨"m", "models", "Model", "outputs=x, dtype=\"f\", inputs=x", none⟩] := by
  refine ⟨?d, ?c, ?m, ?parse, ?compile, ?models, ?args, ?statements⟩
  case parse => cbv; rfl
  case compile => exact Flow.compile_of_evaluate (k := 9) (n := 7) (by cbv) (by rfl)
  case models => rfl
  case args => rfl
  case statements => rfl

/-- The outputs stand first, where they were set first, with what the field lists. -/
theorem model_arguments_ordered_reset :
    ∃ d c m args inputs outputs, Document.parse resetText = .ok d ∧ Flow.compile d = .ok c ∧
      .model m ∈ d.entities ∧
      m.args = [⟨"outputs", "1", .id⟩, ⟨"dtype", "f", .str⟩, ⟨"inputs", "1", .id⟩] ∧
      m.Holds (Declaration.settings args inputs outputs) ∧
      Flow.Keywords d m (Declaration.settings args inputs outputs)
        "outputs=x, dtype=\"f\", inputs=x" ∧
      ∀ base var, (configure base var [.outputs [], .inputs [], .outputs []]).args.map (·.name) =
        (configure base var [.outputs [], .inputs []]).args.map (·.name) := by
  obtain ⟨-, hplace, hdeclared, hloaded, hwritten⟩ := model_arguments_ordered
  obtain ⟨d, c, m, hd, hc, hmodels, hargs, hstatements⟩ := exists_compile_resetText
  have hmem : .model m ∈ d.entities :=
    Document.mem_of_get? (Document.mem_models_iff.1 (by simp [hmodels]))
  obtain ⟨node, hnode⟩ := hloaded resetText d hd m hmem
  obtain ⟨args, inputs, outputs, -, hholds, -, -⟩ := hdeclared node m hnode
  refine ⟨d, c, m, args, inputs, outputs, hd, hc, hmem, hargs, hholds, ?_, fun base var =>
    hplace base var [.outputs [], .inputs []] [.outputs []] (by simp)⟩
  -- The second statement is that of the only model.
  obtain ⟨nodes, hnodes, hkeywords⟩ := hwritten d c hc
  have hlength : 1 < nodes.length := by simp [hnodes.length_eq, hstatements]
  have hst : c.statements[1]? =
      some ⟨"m", "models", "Model", "outputs=x, dtype=\"f\", inputs=x", none⟩ := by
    simp [hstatements]
  have hsecond : nodes[1]? = some nodes[1] := List.getElem?_eq_getElem hlength
  rcases hnodes.statement 1 _ _ hsecond hst with ⟨l, -, hl⟩ | ⟨m', heq, -⟩
  · exact absurd hl.source (by decide)
  · have hentity : .model m' ∈ d.entities :=
      heq ▸ hnodes.mem_entities _ (List.getElem_mem hlength)
    have hmodel : m' ∈ d.models := Document.mem_models_iff.2 (Document.get?_of_mem hentity)
    obtain rfl : m' = m := by simpa [hmodels] using hmodel
    exact hkeywords 1 m' _ (heq ▸ hsecond) hst _ hholds

end NetDiagram
