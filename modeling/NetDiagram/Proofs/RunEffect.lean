import Mathlib
import NetDiagram.Command.Run
import NetDiagram.Proofs.Accounting
import NetDiagram.Proofs.FileTree

/-!
# What a run does to the files

A run has two parts.  First it reads: the settings, the document.  The module is generated from
what was read.  Then it writes: it makes the directory for the module, looks whether a file is
covered, and writes the module.  `prepared` describes the first part as a function of the files, so
that nothing that fails in it can leave a trace.

## Main statements

* `onTree_findSettings`: which settings are used.
* `onTree_run`: a run is its first part, followed by the making of directories and the writing of
  one file.
* `Delivers.of_written`: what a run leaves when it succeeds.
-/

namespace NetDiagram.Command

open Files (FileError FileStore Item LawfulFileStore Location Tree joinPath)
open NetDiagram.Module (Generated Settings)

/-! ## Computations over a tree -/

section

variable {α β : Type} {t : Tree}

/-- The result of a computation that starts with the given files, and the files that it leaves. -/
def onTree (x : ExceptT Failure (StateM Tree) α) (t : Tree) : Except Failure α × Tree :=
  (x.run.run t).run

lemma onTree_mk_pure (x : Except Failure α) :
    onTree (ExceptT.mk (pure x)) t = (x, t) := rfl

lemma onTree_lift (action : StateM Tree α) :
    onTree (liftM action) t = (.ok (action.run t).run.1, (action.run t).run.2) := rfl

/-- A computation in two parts: the second goes on with the files that the first leaves. -/
lemma onTree_bind (x : ExceptT Failure (StateM Tree) α) (f : α → ExceptT Failure (StateM Tree) β) :
    onTree (x >>= f) t =
      match onTree x t with
      | (.error failure, t') => (.error failure, t')
      | (.ok a, t') => onTree (f a) t' := by
  unfold onTree
  simp only [ExceptT.run_bind, StateT.run_bind, Id.run_bind]
  rcases (x.run.run t).run with ⟨result, t'⟩
  cases result with
  | error failure => rfl
  | ok a => rfl

end

/-! ## Exports -/

section

variable {σ : Type} [FileStore (StateM σ)]

/-- Whether there is a file or a directory at the path. -/
def isThere (files : σ) (path : String) : Bool :=
  ((FileStore.pathExists path : StateM σ Bool).run files).1

/-- The result of writing a text, and the files that this leaves. -/
def write (files : σ) (path text : String) : Except FileError Unit × σ :=
  (FileStore.writeText path text : StateM σ (Except FileError Unit)).run files

/-- The module, with a notice if there is a file or a directory at the path. -/
def noted (files : σ) (path : String) (g : Generated) : Generated :=
  if isThere files path then g.addNotice (.coveredFile path) else g

lemma code_noted (files : σ) (path : String) (g : Generated) :
    (noted files path g).code = g.code := by
  unfold noted
  split <;> rfl

lemma warnings_noted (files : σ) (path : String) (g : Generated) :
    (noted files path g).warnings = g.warnings ++
      if isThere files path then [(Flow.Notice.coveredFile path).diagnostic] else [] := by
  unfold noted
  split
  · exact List.map_append
  · exact (List.append_nil _).symm

/-- **An export notes what it finds and writes**, in every file system. -/
theorem run_exportTo [LawfulFileStore σ] (dir : String) (g : Generated) (files : σ) :
    (Module.exportTo dir g : StateM σ (Except Failure String × Generated)).run files =
      let path := joinPath dir g.fileName
      match write files path g.code with
      | (.error cause, files') => ((.error (.exporting path cause), noted files path g), files')
      | (.ok _, files') => ((.ok path, noted files path g), files') := by
  have hlook : ∀ path, (FileStore.pathExists path : StateM σ Bool).run files =
      pure (isThere files path, files) := fun path =>
    Prod.ext rfl (LawfulFileStore.run_pathExists path files)
  have hcode := code_noted files (joinPath dir g.fileName) g
  unfold noted at hcode
  unfold Module.exportTo write noted
  simp only [StateT.run_bind, hlook, pure_bind, hcode]
  -- the notice is added before the write, so both outcomes of the write keep it
  rcases (FileStore.writeText (joinPath dir g.fileName) g.code : StateM σ _).run files with
    ⟨result, files'⟩
  cases result with
  | error cause => rfl
  | ok _ => rfl

end

/-! ## Settings -/

/-- What a settings file says. -/
def settingsAt (t : Tree) (path : String) : Except Failure Settings :=
  if t.pathExists path then
    match t.readText path with
    | .error cause => .error (.files cause)
    | .ok text =>
      (Settings.parse text).mapError fun e =>
        .files (.other ("Failed to parse TOML configuration `" ++ path ++ "`: " ++ e.message))
  else .error (.files (.other ("Missing configuration file: " ++ path)))

/-- The settings of the given file, or of the first of the others that exists, or the defaults. -/
def chosenSettings (given : Option String) (candidates : List String) (t : Tree) :
    Except Failure Settings :=
  match given.or (candidates.find? t.pathExists) with
  | some path => settingsAt t path
  | none => .ok {}

lemma onTree_loadSettings (path : String) (t : Tree) :
    onTree (loadSettings path) t = (settingsAt t path, t) := by
  have hexists : onTree (liftM (FileStore.pathExists path : StateM Tree Bool)) t =
      (.ok (t.pathExists path), t) := rfl
  have hread : onTree (orFail .files (FileStore.readText path : StateM Tree _)) t =
      ((t.readText path).mapError .files, t) := rfl
  unfold loadSettings settingsAt
  rw [onTree_bind, hexists]
  dsimp only
  cases t.pathExists path with
  | false => rfl
  | true =>
    rw [if_pos rfl, if_pos rfl, onTree_bind, hread]
    cases t.readText path with
    | error cause => rfl
    | ok text =>
      simp only [Except.mapError]
      cases Settings.parse text with
      | error e => rfl
      | ok settings => rfl

lemma onTree_findSettings (given : Option String) (candidates : List String) (t : Tree) :
    onTree (findSettings given candidates) t = (chosenSettings given candidates t, t) := by
  cases given with
  | some path => rw [findSettings, chosenSettings, Option.some_or, onTree_loadSettings]
  | none =>
    induction candidates with
    | nil => rfl
    | cons path rest ih =>
      have hexists : onTree (liftM (FileStore.pathExists path : StateM Tree Bool)) t =
          (.ok (t.pathExists path), t) := rfl
      unfold findSettings
      rw [onTree_bind, hexists]
      dsimp only
      cases hpath : t.pathExists path with
      | true =>
        rw [if_pos rfl, onTree_loadSettings, chosenSettings, Option.none_or,
          List.find?_cons_of_pos hpath]
      | false =>
        rw [if_neg (by simp), ih, chosenSettings, chosenSettings, Option.none_or, Option.none_or,
          List.find?_cons_of_neg (by simp [hpath])]

/-! ## Runs -/

/-- The first part of a run: the text of the document and the module that is generated from it,
with the settings of the files and the choices of the options. -/
def prepared (host : Host) (o : Options) (t : Tree) : Except Failure (String × Generated) :=
  match chosenSettings o.config ("kmb/config.toml" :: host.settingsPath.toList) t with
  | .error failure => .error failure
  | .ok s =>
    match t.readText o.input with
    | .error cause => .error (.files cause)
    | .ok source =>
      match Module.build ⟨o.name.getD s.name, o.author.getD s.author, o.comment.or s.comment⟩
        host.date source with
      | .error failure => .error failure
      | .ok g => .ok (source, g)

/-- The second part of a run. -/
def delivered (o : Options) (source : String) (g : Generated) (t : Tree) :
    Except Failure Outcome × Tree :=
  let path := joinPath o.output g.fileName
  match t.makeDirectories o.output with
  | (.error cause, t₁) => (.error (.files cause), t₁)
  | (.ok _, t₁) =>
    match t₁.writeText path g.code with
    | (.error cause, t') => (.error (.exporting path cause), t')
    | (.ok _, t') => (.ok ⟨path, source, (noted t₁ path g).warnings⟩, t')

/-- **A run is its first part, followed by the second.** -/
theorem onTree_run (host : Host) (o : Options) (t : Tree) :
    onTree (run host o) t =
      match prepared host o t with
      | .error failure => (.error failure, t)
      | .ok (source, g) => delivered o source g t := by
  have hread : onTree (orFail .files (FileStore.readText o.input : StateM Tree _)) t =
      ((t.readText o.input).mapError .files, t) := rfl
  have hmake : onTree (orFail .files (FileStore.makeDirectories o.output : StateM Tree _)) t =
      ((t.makeDirectories o.output).1.mapError .files, (t.makeDirectories o.output).2) := rfl
  -- Up to the build the files are only read; what follows is `delivered`.
  unfold run prepared
  rw [onTree_bind, onTree_findSettings, localSettingsPath]
  cases chosenSettings o.config ("kmb/config.toml" :: host.settingsPath.toList) t with
  | error failure => rfl
  | ok s =>
    dsimp only
    rw [onTree_bind, hread]
    cases t.readText o.input with
    | error cause => rfl
    | ok source =>
      dsimp only [Except.mapError, Settings.override]
      rw [onTree_bind, onTree_mk_pure]
      cases Module.build ⟨o.name.getD s.name, o.author.getD s.author, o.comment.or s.comment⟩
        host.date source with
      | error failure => rfl
      | ok g =>
        dsimp only [delivered]
        rw [onTree_bind, hmake]
        rcases t.makeDirectories o.output with ⟨made, t₁⟩
        cases made with
        | error cause => rfl
        | ok _ =>
          have hwrite : write t₁ (joinPath o.output g.fileName) g.code =
              t₁.writeText (joinPath o.output g.fileName) g.code := rfl
          dsimp only [Except.mapError]
          rw [onTree_bind, onTree_lift, run_exportTo]
          dsimp only
          rw [hwrite]
          rcases t₁.writeText (joinPath o.output g.fileName) g.code with ⟨written, t'⟩
          cases written with
          | error cause => rfl
          | ok _ => rfl

/-! ## What a run leaves -/

/-- The warnings of a compilation do not say that a file is covered. -/
lemma not_covered_of_build {s : Settings} {date source : String} {g : Generated}
    (h : Module.build s date source = .ok g) {w : Diagnostic} (hw : w ∈ g.warnings) :
    w.code.map Code.name ≠ some "W003" := by
  unfold Module.build Module.generate at h
  split at h
  · simp at h
  · split at h
    · simp [Except.mapError] at h
    · rename_i c hc
      obtain rfl := Except.ok.inj h
      obtain ⟨n, hn, rfl⟩ := List.mem_map.1 hw
      obtain ⟨t, hreached, rfl⟩ := Flow.exists_reached_of_compile hc
      obtain ⟨nodes, hnodes⟩ := hreached.transcribes
      obtain ⟨i, j, k, hcodes⟩ := hnodes.warningsInOrder.codes
      have hcode : n.diagnostic.code.map Code.name ∈
          (t.finish _).notices.map fun n => n.diagnostic.code.map Code.name :=
        List.mem_map_of_mem hn
      rw [hcodes, List.mem_append, List.mem_append] at hcode
      rcases hcode with (hcode | hcode) | hcode
      · rw [List.eq_of_mem_replicate hcode]
        decide
      · rw [List.eq_of_mem_replicate hcode]
        decide
      · rw [List.eq_of_mem_replicate hcode]
        decide

/-- A run has succeeded: it has written the module that was generated from the source to the given
location, and it has made no more than directories for it. -/
structure Delivers (o : Options) (source : String) (g : Generated) (t : Tree) (loc : Location)
    (outcome : Outcome) (t' : Tree) : Prop where
  path : outcome.path = joinPath o.output g.fileName
  source : outcome.source = source
  find : t'.find outcome.path = .ok loc
  content : t'.readText outcome.path = .ok g.code
  base : t'.base = t.base
  fault? : t'.fault? = t.fault?
  others : ∀ l ≠ loc, t'.get? l = t.get? l ∨
    (t.get? l = none ∧ t'.get? l = some .directory ∧ t.OnWay o.output l)
  warnings : ∃ covered : Diagnostic, covered.code.map Code.name = some "W003" ∧
    outcome.warnings = g.warnings ++ if (t.get? loc).isSome then [covered] else []
  compiled : ∀ w ∈ g.warnings, w.code.map Code.name ≠ some "W003"
  resolved : ∀ loc', t.find outcome.path = .ok loc' →
    loc' = loc ∧ t.pathExists outcome.path = (t.get? loc).isSome
  existed : t.Closed → ".." ∉ Tree.names (t.relative outcome.path) →
    t.pathExists outcome.path = (t.get? loc).isSome

lemma Delivers.of_written {o : Options} {source : String} {g : Generated} {t t₁ t' : Tree}
    {loc : Location} (hmade : t.AddsDirectories (t.OnWay o.output) t₁)
    (hwritten : t₁.Written (joinPath o.output g.fileName) g.code.toUTF8 loc t')
    (hcompiled : ∀ w ∈ g.warnings, w.code.map Code.name ≠ some "W003") :
    Delivers o source g t loc
      ⟨joinPath o.output g.fileName, source, (noted t₁ (joinPath o.output g.fileName) g).warnings⟩
      t' := by
  -- a directory that is made is not in the place of the file
  have hsame : t₁.get? loc = t.get? loc := hmade.get?_eq hwritten.notDirectory
  have hdir : t.get? loc ≠ some .directory := hsame ▸ hwritten.notDirectory
  have hexists : t.find (joinPath o.output g.fileName) = .ok loc →
      t.pathExists (joinPath o.output g.fileName) = (t.get? loc).isSome :=
    fun hfind => Tree.pathExists_of_find hfind hdir hwritten.noSlash
  refine
    { path := rfl
      source := rfl
      find := hwritten.find_eq
      content := hwritten.readText_eq
      base := by rw [hwritten.eq, ← hmade.base]; rfl
      fault? := by rw [hwritten.eq, ← hmade.fault?]; rfl
      others := fun l hl => ?_
      warnings := ⟨(Flow.Notice.coveredFile (joinPath o.output g.fileName)).diagnostic,
        (Flow.Notice.code_eq_iff (c := .coveredFile)).1 rfl, ?_⟩
      compiled := hcompiled
      resolved := fun loc' hfind => ?_
      existed := fun hclosed hup => ?_ }
  · rw [hwritten.get?_eq, if_neg hl]
    exact hmade.get? l
  · have hthere : isThere t₁ (joinPath o.output g.fileName) = (t₁.get? loc).isSome :=
      Tree.pathExists_of_find hwritten.find hwritten.notDirectory hwritten.noSlash
    dsimp only
    rw [warnings_noted, hthere, hsame]
  · obtain rfl : loc' = loc := Except.ok.inj ((hmade.find hfind).symm.trans hwritten.find)
    exact ⟨rfl, hexists hfind⟩
  · dsimp only at hup ⊢
    by_cases hsome : (t.get? loc).isSome
    · exact hexists (hclosed.find hmade hup hwritten.find hwritten.notDirectory hsome)
    · rw [Bool.not_eq_true] at hsome
      rw [hsome]
      cases hfind : t.find (joinPath o.output g.fileName) with
      | error cause => simp only [Tree.pathExists, Tree.item, hfind]
      | ok loc' =>
        obtain rfl : loc' = loc := Except.ok.inj ((hmade.find hfind).symm.trans hwritten.find)
        rw [hexists hfind, hsome]

/-- A run that fails in its second part: directories cannot be made, or the file cannot be written.
-/
def Obstructed (o : Options) (g : Generated) (t : Tree) (failure : Failure) (t' : Tree) : Prop :=
  (∃ cause, t.makeDirectories o.output = (.error cause, t') ∧ failure = .files cause) ∨
    ∃ cause t₁, t.makeDirectories o.output = (.ok (), t₁) ∧
      t₁.writeText (joinPath o.output g.fileName) g.code = (.error cause, t') ∧
      failure = .exporting (joinPath o.output g.fileName) cause

/-- The second part of a run makes directories, and writes the module if they are there. -/
lemma delivered_cases (o : Options) (source : String) (g : Generated) (t : Tree) :
    match delivered o source g t with
    | (.error failure, t') => Obstructed o g t failure t' ∧
        ∃ t₁, t.AddsDirectories (t.OnWay o.output) t₁ ∧
          t₁.Interrupted (joinPath o.output g.fileName) g.code t'
    | (.ok outcome, t') => ∃ t₁, t.AddsDirectories (t.OnWay o.output) t₁ ∧
        t₁.writeText (joinPath o.output g.fileName) g.code = (.ok (), t') ∧
        outcome = ⟨joinPath o.output g.fileName, source,
          (noted t₁ (joinPath o.output g.fileName) g).warnings⟩ := by
  have hmade := Tree.AddsDirectories.makeDirectories t o.output
  rcases hmake : t.makeDirectories o.output with ⟨made, t₁⟩
  rw [hmake] at hmade
  cases made with
  | error cause =>
    simp only [delivered, hmake]
    -- no write was tried
    exact ⟨Or.inl ⟨cause, hmake, rfl⟩, t₁, hmade, Or.inl rfl⟩
  | ok _ =>
    rcases hwrite : t₁.writeText (joinPath o.output g.fileName) g.code with ⟨written, t'⟩
    cases written with
    | error cause =>
      simp only [delivered, hmake, hwrite]
      exact ⟨Or.inr ⟨cause, t₁, hmake, hwrite, rfl⟩, t₁, hmade, Tree.interrupted hwrite⟩
    | ok _ =>
      simp only [delivered, hmake, hwrite]
      exact ⟨t₁, hmade, hwrite, rfl⟩

lemma delivered_spec {o : Options} {g : Generated}
    (hcompiled : ∀ w ∈ g.warnings, w.code.map Code.name ≠ some "W003") (source : String)
    (t : Tree) :
    match delivered o source g t with
    | (.error failure, t') => Obstructed o g t failure t' ∧
        ∃ t₁, t.AddsDirectories (t.OnWay o.output) t₁ ∧
          t₁.Interrupted (joinPath o.output g.fileName) g.code t'
    | (.ok outcome, t') => ∃ loc, Delivers o source g t loc outcome t' := by
  have hcases := delivered_cases o source g t
  rcases hdelivered : delivered o source g t with ⟨result, t'⟩
  rw [hdelivered] at hcases
  cases result with
  | error failure => exact hcases
  | ok outcome =>
    obtain ⟨t₁, hmade, hwrite, rfl⟩ := hcases
    obtain ⟨loc, hwritten, -⟩ := Tree.exists_written hwrite
    exact ⟨loc, .of_written hmade hwritten hcompiled⟩

/-- What is prepared was built with the name, the author and the comment of the options, or with
those of the settings. -/
lemma build_of_prepared {host : Host} {o : Options} {t : Tree} {source : String} {g : Generated}
    (h : prepared host o t = .ok (source, g)) :
    ∃ s, chosenSettings o.config ("kmb/config.toml" :: host.settingsPath.toList) t = .ok s ∧
      Module.build ⟨o.name.getD s.name, o.author.getD s.author, o.comment.or s.comment⟩ host.date
        source = .ok g := by
  unfold prepared at h
  split at h
  · simp at h
  · rename_i hchosen
    split at h
    · simp at h
    · split at h
      · simp at h
      · rename_i hbuild
        simp only [Except.ok.injEq, Prod.mk.injEq] at h
        obtain ⟨rfl, rfl⟩ := h
        exact ⟨_, hchosen, hbuild⟩

/-- **A run leaves no trace, or one file.**  If the settings or the text of the document cannot be
read, or if there is no module for that text, the files stay as they are.  Otherwise the run fails
only if directories cannot be made, or the file cannot be written; then it leaves no more than
directories on the way to the output and, if the disk is full, the beginning of the file.  If it
succeeds, it has written one file with the text of the module; all else is unchanged but for such
directories.  Its warnings are those of the compilation, followed by one with code `W003` exactly if
there was an item in the place of the file before. -/
theorem run_effect (host : Host) (o : Options) (t : Tree) :
    (∀ failure, prepared host o t = .error failure →
      onTree (run host o) t = (.error failure, t)) ∧
    ∀ source g, prepared host o t = .ok (source, g) →
      match onTree (run host o) t with
      | (.error failure, t') => Obstructed o g t failure t' ∧
          ∃ t₁, t.AddsDirectories (t.OnWay o.output) t₁ ∧
            t₁.Interrupted (joinPath o.output g.fileName) g.code t'
      | (.ok outcome, t') => ∃ loc, Delivers o source g t loc outcome t' := by
  constructor
  · intro failure hprepared
    rw [onTree_run, hprepared]
  · intro source g hprepared
    obtain ⟨s, -, hbuild⟩ := build_of_prepared hprepared
    rw [onTree_run, hprepared]
    exact delivered_spec (fun _ => not_covered_of_build hbuild) source t

/-- A document with a layer and a model that are not connected, as arrays of their fields. -/
def smallText : String :=
  "layer=[[1,'x','I','IO',true]]\nmodel=[[2,'m']]"

lemma exists_compile_smallText :
    ∃ d c, Document.parse smallText = .ok d ∧ Flow.compile d = .ok c ∧
      c.notices.map (fun n => n.diagnostic.labels.length) = [1] := by
  refine ⟨?d, ?c, ?parse, ?compile, ?labels⟩
  case parse => cbv; rfl
  case compile => exact Flow.compile_of_evaluate (k := 9) (n := 7) (by cbv) (by rfl)
  case labels => rfl

lemma fileName_model : Module.fileName (Module.title "Model") = "model.py" := by decide +kernel

lemma exists_build_smallText (s : Settings) (date : String) :
    ∃ c, Module.build s date smallText =
      .ok ⟨Module.fileName (Module.title s.name), Module.moduleText s date c, c⟩ := by
  obtain ⟨d, c, hd, hc, -⟩ := exists_compile_smallText
  refine ⟨c, ?_⟩
  simp only [Module.build, hd, Module.generate, hc, Except.mapError]

/-- Settings with a name and an author. -/
def settingsText : String :=
  "[model]\nname = \"Model\"\nauthor = \"ada\"\n"

/-- A directory with a document and settings, and another one inside with an earlier module. -/
def site (document earlier : ByteArray) : Tree where
  items := [(["net.toml"], .file document), (["kmb"], .directory),
    (["kmb", "config.toml"], .file settingsText.toUTF8), (["out"], .directory),
    (["out", "net.py"], .file earlier)]

/-- The options of a run that writes into the directory inside, under a name of its own. -/
def intoOut (input : String) : Options where
  input := input
  output := "out"
  name := some "net"

section Site

variable (document earlier : ByteArray)

lemma find_eq_locate {t : Tree} {path : String} (h : t.checkPath path = .ok ()) :
    t.find path = t.locate [] (Tree.names (t.relative path)) := by
  rw [Tree.find, h]

lemma chosenSettings_site :
    chosenSettings none ["kmb/config.toml"] (site document earlier) =
      .ok ⟨"Model", "ada", none⟩ := by
  have hfind : (site document earlier).find "kmb/config.toml" = .ok ["kmb", "config.toml"] := by
    rw [find_eq_locate rfl]
    cbv
  have hget : (site document earlier).get? ["kmb", "config.toml"] =
      some (.file settingsText.toUTF8) := rfl
  have hexists : (site document earlier).pathExists "kmb/config.toml" = true := by
    rw [Tree.pathExists_of_find hfind (by rw [hget]; simp) (by decide), hget]
    rfl
  have hread : (site document earlier).readText "kmb/config.toml" = .ok settingsText :=
    Tree.readText_of_find hfind hget (by decide)
  have hparse : Settings.parse settingsText = .ok ⟨"Model", "ada", none⟩ := by cbv
  simp [chosenSettings, settingsAt, hexists, hread, hparse, Except.mapError]

lemma prepared_site_missing (date : String) :
    prepared ⟨date, none⟩ (intoOut "none.toml") (site document earlier) =
      .error (.files .notFound) := by
  have hfind : (site document earlier).find "none.toml" = .ok ["none.toml"] := by
    rw [find_eq_locate rfl]
    cbv
  have hget : (site document earlier).get? ["none.toml"] = none := rfl
  have hread : (site document earlier).readText "none.toml" = .error .notFound := by
    simp only [Tree.readText, Tree.readBytes, Tree.item, hfind, hget]
  simp only [prepared, intoOut, Option.toList_none, chosenSettings_site, hread]

lemma readText_site (text : String) :
    (site text.toUTF8 earlier).readText "net.toml" = .ok text := by
  have hfind : ∀ document, (site document earlier).find "net.toml" = .ok ["net.toml"] := by
    intro document
    rw [find_eq_locate rfl]
    cbv
  exact Tree.readText_of_find (hfind _) rfl (by decide)

/-- The name is that of the options, and the author is that of the settings. -/
lemma exists_prepared_site (date : String) :
    ∃ g, Module.build ⟨"net", "ada", none⟩ date smallText = .ok g ∧ g.fileName = "net.py" ∧
      prepared ⟨date, none⟩ (intoOut "net.toml") (site smallText.toUTF8 earlier) =
        .ok (smallText, g) := by
  obtain ⟨c, hbuild⟩ := exists_build_smallText ⟨"net", "ada", none⟩ date
  have hfile : Module.fileName (Module.title "net") = "net.py" := by decide +kernel
  refine ⟨_, hbuild, hfile, ?_⟩
  simp only [prepared, intoOut, Option.toList_none, chosenSettings_site, readText_site,
    Option.getD_some, Option.getD_none, Option.none_or, hbuild]

lemma exists_delivered_site {g : Generated} (hg : g.fileName = "net.py") (source : String) :
    ∃ outcome t', delivered (intoOut "net.toml") source g (site document earlier) =
      (.ok outcome, t') := by
  have hcheck : (site document earlier).checkPath "out" = .ok () := rfl
  have hmake : (site document earlier).makeDirectories "out" = (.ok (), site document earlier) := by
    simp only [Tree.makeDirectories, hcheck]
    cbv
  have hfind : (site document earlier).find "out/net.py" = .ok ["out", "net.py"] := by
    rw [find_eq_locate rfl]
    cbv
  have hget : (site document earlier).get? ["out", "net.py"] = some (.file earlier) := rfl
  have hdest : (site document earlier).destination "out/net.py" = .ok ["out", "net.py"] :=
    Tree.destination_eq_ok_iff.2 ⟨hfind, by rw [hget]; simp, by decide⟩
  have hpath : joinPath "out" "net.py" = "out/net.py" := by decide
  have hwrite : ∃ t', (site document earlier).writeText "out/net.py" g.code = (.ok (), t') :=
    ⟨_, Tree.writeText_of_sound hdest rfl⟩
  obtain ⟨t', hwrite⟩ := hwrite
  simp only [delivered, intoOut, hmake, hg, hpath, hwrite]
  exact ⟨_, _, rfl⟩

end Site

/-- Without a document nothing changes.  With one, a module is written over the earlier one, with
the name of the options and the author of the settings. -/
theorem run_effect_site :
    onTree (run ⟨"24/01/31", none⟩ (intoOut "none.toml")) (site smallText.toUTF8 "".toUTF8) =
      (.error (.files .notFound), site smallText.toUTF8 "".toUTF8) ∧
    ∃ g outcome t' loc, Module.build ⟨"net", "ada", none⟩ "24/01/31" smallText = .ok g ∧
      onTree (run ⟨"24/01/31", none⟩ (intoOut "net.toml")) (site smallText.toUTF8 "".toUTF8) =
        (.ok outcome, t') ∧
      Delivers (intoOut "net.toml") smallText g (site smallText.toUTF8 "".toUTF8) loc outcome
        t' := by
  constructor
  · exact (run_effect _ _ _).1 _ (prepared_site_missing _ _ _)
  · obtain ⟨g, hbuild, hname, hprepared⟩ := exists_prepared_site "".toUTF8 "24/01/31"
    obtain ⟨outcome, t', hdelivered⟩ :=
      exists_delivered_site smallText.toUTF8 "".toUTF8 hname smallText
    have hrun : onTree (run ⟨"24/01/31", none⟩ (intoOut "net.toml"))
        (site smallText.toUTF8 "".toUTF8) = (.ok outcome, t') := by
      rw [onTree_run, hprepared]
      exact hdelivered
    have heffect := (run_effect ⟨"24/01/31", none⟩ (intoOut "net.toml")
      (site smallText.toUTF8 "".toUTF8)).2 smallText g hprepared
    simp only [hrun] at heffect
    obtain ⟨loc, hdelivers⟩ := heffect
    exact ⟨g, outcome, t', loc, hbuild, hrun, hdelivers⟩

end NetDiagram.Command
