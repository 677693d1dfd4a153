import NetDiagram.Proofs.RunEffect
import NetDiagram.Proofs.IdLists
import NetDiagram.Proofs.Titles

/-!
# Names of files

A module is written to a path that is put together from a directory and the name of a file, and the
name of the file is made from a text that the user may choose freely.  This file shows that the text
cannot lead out of the directory: whatever it is, the name made from it is one name, with a single
dot and no slash, and the file lies where the directory is, one step further.

## Main statements

* `Module.isFileName_fileName`: the name of a file is a plain name.
* `Files.Tree.find_joinPath_eq_ok_iff`: the path of a plain name in a directory leads one step
  further than the directory.
* `Command.export_stays_inside`: an export, and a whole run, writes no file but one in the given
  directory.
-/

namespace NetDiagram

/-! ## Plain names -/

namespace Text

/-- The ranges of blanks. -/
def blankRanges : List (Nat × Nat) :=
  [(9, 13), (0x20, 0x20), (0x85, 0x85), (0xA0, 0xA0), (0x1680, 0x1680), (0x2000, 0x200A),
    (0x2028, 0x2029), (0x202F, 0x202F), (0x205F, 0x205F), (0x3000, 0x3000)]

lemma isBlank_eq_inRanges (c : Char) : isBlank c = inRanges blankRanges c.toNat := by
  rw [Bool.eq_iff_iff]
  simp only [isBlank, blankRanges, inRanges, List.any_cons, List.any_nil, Bool.or_eq_true,
    Bool.and_eq_true, decide_eq_true_eq, beq_iff_eq, Bool.or_false]
  omega

lemma isBlank_eq_false_of_isAlphanumeric {c : Char} (h : isAlphanumeric c = true) :
    isBlank c = false := by
  have hdisjoint : rangeBits blankRanges &&& rangeBits alphanumericRanges = 0 := by decide +kernel
  have hbit := congrArg (Nat.testBit · c.toNat) hdisjoint
  simp only [Nat.testBit_and, Nat.zero_testBit, testBit_rangeBits] at hbit
  rw [isAlphanumeric] at h
  rw [isBlank_eq_inRanges]
  simpa [h] using hbit

/-- A lower-case form has letters and digits only, but for a dot above. -/
lemma isAlphanumeric_of_mem_lower {c x : Char} (h : x ∈ lower c) :
    x = c ∨ isAlphanumeric x = true ∨ x = '\u0307' := by
  have hentries : ∀ e ∈ caseEntries lowerExpansions lowerRuns, ∀ n ∈ e.2,
      inRanges alphanumericRanges n = true ∨ n = 0x307 := by
    simp only [← testBit_rangeBits]
    decide +kernel
  rcases caseImage_cases lowerExpansions lowerRuns c with hself | ⟨e, he, -, himage⟩
  · rw [lower, hself, List.mem_singleton] at h
    exact Or.inl h
  · rw [lower, himage] at h
    obtain ⟨n, hn, rfl⟩ := List.mem_map.1 h
    rcases hentries e he n hn with hletter | rfl
    · rw [isAlphanumeric, toNat_ofNat_of_alphanumeric hletter]
      exact Or.inr (Or.inl hletter)
    · exact Or.inr (Or.inr rfl)

end Text

namespace Module

/-- The character neither divides paths nor is it a blank. -/
def IsPlain (c : Char) : Prop :=
  c ≠ '/' ∧ c ≠ '\\' ∧ c ≠ '\x00' ∧ Text.isBlank c = false

/-- **A plain name of a file.**  It is one step of a path: it ends in the suffix, before which there
is something without a dot. -/
structure IsFileName (file : String) : Prop where
  plain : ∀ c ∈ file.toList, IsPlain c
  exists_stem : ∃ stem, file = stem ++ ".py" ∧ stem ≠ "" ∧ '.' ∉ stem.toList

lemma isPlain_of_isTitleChar {c : Char} (h : isTitleChar c = true) : IsPlain c ∧ c ≠ '.' := by
  have hne : ∀ x ∈ [' ', '\n', '\r', '\x00', '.', '/', '\\'], c ≠ x := by
    rintro x hx rfl
    simp [isTitleChar_eq_false hx] at h
  have hblank : Text.isBlank c = false := by
    rw [isTitleChar, Bool.or_eq_true, beq_iff_eq] at h
    rcases h with hletter | rfl
    · exact Text.isBlank_eq_false_of_isAlphanumeric hletter
    · decide
  exact ⟨⟨hne _ (by simp), hne _ (by simp), hne _ (by simp), hblank⟩, hne _ (by simp)⟩

/-- **The name of a file is a plain name**, whatever the class is named after. -/
theorem isFileName_fileName (name : String) : IsFileName (fileName (title name)) := by
  -- Lower-case forms may bring in a dot above, which is plain as well.
  have hstem : ∀ x ∈ (Text.lowercase (title name)).toList, IsPlain x ∧ x ≠ '.' := by
    intro x hx
    rw [Text.lowercase, String.toList_ofList] at hx
    obtain ⟨c, hc, hx⟩ := List.mem_flatMap.1 hx
    rcases Text.isAlphanumeric_of_mem_lower hx with rfl | hletter | rfl
    · exact isPlain_of_isTitleChar (isTitleChar_of_mem_title hc)
    · exact isPlain_of_isTitleChar (isTitleChar_of_isAlphanumeric hletter)
    · unfold IsPlain
      decide
  have hsuffix : ∀ x ∈ ".py".toList, IsPlain x := by simp [IsPlain, Text.isBlank]
  refine ⟨fun c hc => ?_, Text.lowercase (title name), rfl, ?_, fun hdot => (hstem _ hdot).2 rfl⟩
  · rw [fileName, String.toList_append, List.mem_append] at hc
    exact hc.elim (fun hc => (hstem c hc).1) (hsuffix c)
  · obtain ⟨c, cs, htitle⟩ : ∃ c cs, (title name).toList = c :: cs :=
      List.exists_cons_of_ne_nil (by simpa using title_ne_empty name)
    have hne := (Text.caseForm_lower c).ne_nil
    rw [Text.lowercase, htitle, List.flatMap_cons]
    simp [hne]

end Module

/-! ## The place of a file in a directory -/

namespace Files

/-- A name can follow the path: it is empty, or a slash ends it. -/
def IsOpen (path : String) : Prop :=
  path = "" ∨ ∃ way, path = way ++ "/"

lemma isOpen_of_getLast? {path : String} (h : ∀ c ∈ path.toList.getLast?, c = '/') :
    IsOpen path := by
  cases hlast : path.toList.getLast? with
  | none => exact Or.inl (by simpa using List.getLast?_eq_none_iff.1 hlast)
  | some c =>
    obtain rfl := h c (by simp [hlast])
    obtain ⟨way, hway⟩ := List.getLast?_eq_some_iff.1 hlast
    refine Or.inr ⟨String.ofList way, String.toList_inj.1 ?_⟩
    rw [hway, String.toList_append, String.toList_ofList]
    rfl

lemma IsOpen.eq_slash {path : String} (h : IsOpen path) : ∀ c ∈ path.toList.getLast?, c = '/' := by
  rcases h with rfl | ⟨way, rfl⟩
  · simp
  · simp

lemma joinPath_eq (dir file : String) : joinPath dir file = joinPath dir "" ++ file := by
  unfold joinPath
  split
  · simp
  · split
    · simp
    · simp

lemma isOpen_joinPath (dir : String) : IsOpen (joinPath dir "") := by
  unfold joinPath
  split
  · exact Or.inl rfl
  · split
    · rename_i hslash
      rw [String.append_empty]
      refine isOpen_of_getLast? fun c hc => ?_
      rw [beq_iff_eq] at hslash
      exact (Option.some.inj (hslash.symm.trans hc)).symm
    · exact Or.inr ⟨dir, by simp⟩

lemma length_le_joinPath (dir : String) : dir.length ≤ (joinPath dir "").length := by
  unfold joinPath
  split
  · simp_all
  · split
    · simp
    · simp

namespace Tree

variable {t : Tree} {loc : Location} {path file : String}

lemma names_append (hpath : IsOpen path) (hslash : '/' ∉ file.toList) (hne : file ≠ "") :
    names (path ++ file) = names path ++ [file] := by
  have hfile : Text.splitAt '/' file = [file] := Text.splitAt_eq_singleton hslash
  have hempty : Text.splitAt '/' "" = [""] := Text.splitAt_eq_singleton (by simp)
  rcases hpath with rfl | ⟨way, rfl⟩
  · simp [names, hfile, hempty, hne]
  · have hcut : ∀ rest, Text.splitAt '/' (way ++ "/" ++ rest) =
        Text.splitAt '/' way ++ Text.splitAt '/' rest := Text.splitAt_append '/' way
    have hway : Text.splitAt '/' (way ++ "/") = Text.splitAt '/' way ++ [""] := by
      simpa [hempty] using hcut ""
    simp [names, hcut, hway, hfile, hne]

/-- Whether a path is below the directory of the tree does not depend on the file at its end. -/
lemma isBelow_append (hslash : '/' ∉ file.toList) :
    t.isBelow (path ++ file) = t.isBelow path := by
  rw [Bool.eq_iff_iff, isBelow, isBelow, List.isPrefixOf_iff_prefix, List.isPrefixOf_iff_prefix,
    String.toList_append]
  refine ⟨fun h => ?_, fun h => h.trans (List.prefix_append _ _)⟩
  rcases List.prefix_or_prefix_of_prefix h (List.prefix_append path.toList file.toList) with
    hprefix | ⟨rest, hrest⟩
  · exact hprefix
  · -- what the directory has more than the path is the start of the file, so it has no slash
    rw [← hrest, List.prefix_append_right_inj] at h
    rcases List.eq_nil_or_concat rest with rfl | ⟨start, c, rfl⟩
    · exact ⟨[], by rw [← hrest, List.append_nil, List.append_nil]⟩
    · have hc : c = '/' := (isOpen_joinPath t.base).eq_slash c (by simp [← hrest])
      exact absurd (h.subset (by simp [hc])) hslash

/-- The directory of the tree is left out of a path before the file at its end. -/
lemma relative_append (hpath : IsOpen path) (hslash : '/' ∉ file.toList)
    (hbase : path ++ file ≠ t.base) : t.relative (path ++ file) = t.relative path ++ file := by
  unfold relative
  rw [isBelow_append hslash]
  by_cases hbelow : t.isBelow path = true
  · have hle : (joinPath t.base "").length ≤ path.toList.length := by
      simpa [isBelow, String.length_toList] using
        (List.isPrefixOf_iff_prefix.1 hbelow).length_le
    rw [if_pos hbelow, if_pos hbelow, String.toList_append, List.drop_append_of_le_length hle,
      String.ofList_append, String.ofList_toList]
  · -- the path of the directory of the tree would be below it, for it can be followed by a name
    have hne : path ≠ t.base := by
      rintro rfl
      refine hbelow (List.isPrefixOf_iff_prefix.2 ?_)
      rcases hpath with hempty | ⟨way, hway⟩
      · simp [joinPath, hempty]
      · simp [joinPath, hway]
    rw [if_neg hbelow, if_neg hbelow, if_neg (by simpa using hbase), if_neg (by simpa using hne)]

lemma isOpen_relative (h : IsOpen path) : IsOpen (t.relative path) := by
  unfold relative
  split
  · refine isOpen_of_getLast? fun c hc => h.eq_slash c ?_
    rw [String.toList_ofList, List.getLast?_drop] at hc
    split at hc
    · simp at hc
    · exact hc
  · split
    · exact Or.inl rfl
    · exact h

/-- Where a directory lies: its path, with a slash at the end, leads there.  The empty path stands
for the directory of the tree. -/
def place (t : Tree) (dir : String) : Except FileError Location :=
  t.locate [] (names (t.relative (joinPath dir "")))

/-- A name that leads to a directory can be entered first. -/
lemma locate_cons_of_directory {dir : Location} {name : String} {rest : List String}
    (hname : name.utf8ByteSize ≤ 255 ∧ t.leaves dir name = false)
    (hget : t.get? (enter dir name) = some .directory) :
    t.locate dir (name :: rest) = t.locate (enter dir name) rest := by
  rw [locate, if_neg (Nat.not_lt.2 hname.1), if_neg (by simp [hname.2])]
  cases rest with
  | nil => rfl
  | cons next rest => simp only [List.isEmpty_cons, hget, Bool.false_eq_true, if_false]

lemma locate_concat_eq_ok_iff {dir : Location} {path : List String} {name : String}
    (hup : name ≠ "..") (hdir : t.get? dir = some .directory) :
    t.locate dir (path ++ [name]) = .ok loc ↔
      name.utf8ByteSize ≤ 255 ∧ ∃ here, t.locate dir path = .ok here ∧
        t.get? here = some .directory ∧ loc = enter here name := by
  induction path generalizing dir with
  | nil =>
    rw [List.nil_append, locate_cons_eq_ok_iff]
    simp [locate, hdir, leaves_of_ne t dir hup]
  | cons first rest ih =>
    rw [List.cons_append]
    constructor
    · intro h
      obtain ⟨hfirst, ⟨hnil, -⟩ | ⟨-, hget, hrest⟩⟩ := locate_cons_eq_ok_iff.1 h
      · simp at hnil
      · rw [locate_cons_of_directory hfirst hget]
        exact (ih hget).1 hrest
    · rintro ⟨hname, here, hlocate, hhere, hloc⟩
      have hcons := locate_cons_eq_ok_iff.1 hlocate
      -- The first name leads to a directory, even if no name follows it.
      have hget : t.get? (enter dir first) = some .directory := by
        rcases hcons.2 with ⟨-, rfl⟩ | ⟨-, hget, -⟩
        · exact hhere
        · exact hget
      rw [locate_cons_of_directory hcons.1 hget] at hlocate ⊢
      exact (ih hget).2 ⟨hname, here, hlocate, hhere, hloc⟩

end Tree

end Files

namespace Module.IsFileName

variable {file : String}

lemma slash_notMem (h : IsFileName file) : '/' ∉ file.toList :=
  fun hmem => (h.plain _ hmem).1 rfl

lemma lt_length (h : IsFileName file) : 3 < file.toList.length := by
  obtain ⟨stem, rfl, hne, -⟩ := h.exists_stem
  have hpos : 0 < stem.toList.length := List.length_pos_iff.2 (by simpa using hne)
  have hsuffix : ".py".toList.length = 3 := rfl
  rw [String.toList_append, List.length_append, hsuffix]
  omega

lemma ne_of_length_le (h : IsFileName file) {other : String} (hle : other.toList.length ≤ 3) :
    file ≠ other := by
  rintro rfl
  exact absurd h.lt_length (Nat.not_lt.2 hle)

lemma enter_eq (h : IsFileName file) (here : Files.Location) :
    Files.Tree.enter here file = here ++ [file] := by
  have hdot : file ≠ "." := h.ne_of_length_le (by decide)
  have hup : file ≠ ".." := h.ne_of_length_le (by decide)
  simp [Files.Tree.enter, hdot, hup]

end Module.IsFileName

namespace Files.Tree

open NetDiagram.Module (IsFileName)

variable {t t' : Tree} {here loc : Location} {dir file content : String}

/-- The directory at a path has room for a file with the given text: nothing stands in its place
but what it may cover, and nothing keeps it from being written. -/
structure HasRoom (t : Tree) (dir file content : String) (here : Location) : Prop where
  checked : t.checkPath (joinPath dir file) = .ok ()
  inside : joinPath dir file ≠ t.base
  short : file.utf8ByteSize ≤ 255
  place : t.place dir = .ok here
  directory : t.get? here = some .directory
  free : t.get? (here ++ [file]) ≠ some .directory
  sound : (t.fault? (here ++ [file])).bind (Fault.refusal? content.toUTF8) = none

/-- The second tree is the first one with a file at the given location. -/
structure PutsFile (t : Tree) (loc : Location) (content : ByteArray) (t' : Tree) : Prop where
  base : t'.base = t.base
  fault? : t'.fault? = t.fault?
  get? : ∀ l, t'.get? l = if l = loc then some (.file content) else t.get? l

/-- The second tree is the first one with the beginning of a file in the directory at a path, where
the disk is full. -/
def CutsFile (t : Tree) (dir file content : String) (t' : Tree) : Prop :=
  ∃ here room, t.place dir = .ok here ∧ t.fault? (here ++ [file]) = some (.full room) ∧
    room < content.toUTF8.size ∧ t.PutsFile (here ++ [file]) (content.toUTF8.extract 0 room) t'

lemma Written.putsFile {path : String} {bytes : ByteArray} (h : Written t path bytes loc t') :
    PutsFile t loc bytes t' :=
  ⟨by rw [h.eq]; rfl, by rw [h.eq]; rfl, h.get?_eq⟩

/-- The path of a plain name in a directory leads one step further than the directory, unless it is
the path of the tree itself. -/
lemma find_joinPath_eq_ok_iff (hfile : IsFileName file) (hbase : joinPath dir file ≠ t.base) :
    t.find (joinPath dir file) = .ok loc ↔
      t.checkPath (joinPath dir file) = .ok () ∧ file.utf8ByteSize ≤ 255 ∧
        ∃ here, t.place dir = .ok here ∧ t.get? here = some .directory ∧ loc = here ++ [file] := by
  have hnames : names (t.relative (joinPath dir file)) =
      names (t.relative (joinPath dir "")) ++ [file] := by
    rw [joinPath_eq] at hbase ⊢
    rw [relative_append (isOpen_joinPath dir) hfile.slash_notMem hbase]
    exact names_append (isOpen_relative (isOpen_joinPath dir)) hfile.slash_notMem
      (hfile.ne_of_length_le (by decide))
  unfold find place
  split
  · simp_all
  · rename_i hcheck
    rw [hnames, locate_concat_eq_ok_iff (hfile.ne_of_length_le (by decide)) rfl]
    simp only [hcheck, hfile.enter_eq, true_and]

lemma ne_base_of_find {path : String} (h : t.find path = .ok loc)
    (hdir : t.get? loc ≠ some .directory) : path ≠ t.base := by
  rintro rfl
  have hrelative : names (t.relative t.base) = [] := by
    unfold relative
    split
    · rw [List.drop_eq_nil_of_le (by simpa [String.length_toList] using length_le_joinPath t.base)]
      rfl
    · rw [if_pos (by simp)]
      rfl
  unfold find at h
  split at h
  · simp at h
  · rw [hrelative] at h
    obtain rfl := Except.ok.inj h
    exact hdir rfl

lemma getLast?_joinPath (hfile : IsFileName file) :
    (joinPath dir file).toList.getLast? ≠ some '/' := by
  obtain ⟨stem, hstem, -⟩ := hfile.exists_stem
  rw [joinPath_eq, hstem]
  simp

lemma Written.exists_place (hfile : IsFileName file) {bytes : ByteArray}
    (h : Written t (joinPath dir file) bytes loc t') :
    t.checkPath (joinPath dir file) = .ok () ∧ file.utf8ByteSize ≤ 255 ∧
      ∃ here, t.place dir = .ok here ∧ t.get? here = some .directory ∧ loc = here ++ [file] :=
  (find_joinPath_eq_ok_iff hfile (ne_base_of_find h.find h.notDirectory)).1 h.find

/-- A file that was written into a directory lies there, and nothing else has changed. -/
lemma exists_hasRoom_of_writeText (hfile : IsFileName file) {done : Unit}
    (h : t.writeText (joinPath dir file) content = (.ok done, t')) :
    ∃ here, t.HasRoom dir file content here ∧
      t.PutsFile (here ++ [file]) content.toUTF8 t' := by
  obtain ⟨loc, hwritten, hsound⟩ := exists_written h
  obtain ⟨hchecked, hshort, here, hplace, hdir, rfl⟩ := hwritten.exists_place hfile
  have hinside := ne_base_of_find hwritten.find hwritten.notDirectory
  exact ⟨here, ⟨hchecked, hinside, hshort, hplace, hdir, hwritten.notDirectory, hsound⟩,
    hwritten.putsFile⟩

/-- A file that could not be written into a directory is cut short there, if it is changed. -/
lemma eq_or_cutsFile (hfile : IsFileName file)
    (h : t.Interrupted (joinPath dir file) content t') :
    t' = t ∨ t.CutsFile dir file content t' := by
  rcases h with rfl | ⟨loc, room, hfull, hroom, hwritten⟩
  · exact Or.inl rfl
  · obtain ⟨-, -, here, hplace, -, rfl⟩ := hwritten.exists_place hfile
    exact Or.inr ⟨here, room, hplace, hfull, hroom, hwritten.putsFile⟩

lemma HasRoom.exists_writeText (h : t.HasRoom dir file content here) (hfile : IsFileName file) :
    ∃ t', t.writeText (joinPath dir file) content = (.ok (), t') := by
  have hfind : t.find (joinPath dir file) = .ok (here ++ [file]) :=
    (find_joinPath_eq_ok_iff hfile h.inside).2
      ⟨h.checked, h.short, here, h.place, h.directory, rfl⟩
  have hdest : t.destination (joinPath dir file) = .ok (here ++ [file]) :=
    destination_eq_ok_iff.2 ⟨hfind, h.free, getLast?_joinPath hfile⟩
  exact ⟨_, writeText_of_sound hdest h.sound⟩

end Files.Tree

/-! ## Exports -/

namespace Command

open Files (Location Tree joinPath)
open NetDiagram.Module (Generated IsFileName Settings)

/-- An export writes one file into the directory, if there is room for it, and nothing else. -/
lemma exportTo_spec {g : Generated} (hfile : IsFileName g.fileName) (dir : String) (t : Tree) :
    match ((Module.exportTo dir g : StateM Tree (Except Failure String × Generated)).run t).run with
    | ((.error _, _), t') => (∀ here, ¬ t.HasRoom dir g.fileName g.code here) ∧
        (t' = t ∨ t.CutsFile dir g.fileName g.code t')
    | ((.ok path, _), t') => path = joinPath dir g.fileName ∧
        ∃ here, t.HasRoom dir g.fileName g.code here ∧
          t.PutsFile (here ++ [g.fileName]) g.code.toUTF8 t' := by
  have hwrite : write t (joinPath dir g.fileName) g.code =
      t.writeText (joinPath dir g.fileName) g.code := rfl
  rw [Id.run, run_exportTo]
  dsimp only
  rw [hwrite]
  rcases hwritten : t.writeText (joinPath dir g.fileName) g.code with ⟨written, t'⟩
  cases written with
  | error cause =>
    refine ⟨fun here hroom => ?_, Tree.eq_or_cutsFile hfile (Tree.interrupted hwritten)⟩
    obtain ⟨t'', hroom⟩ := hroom.exists_writeText hfile
    simp [hroom] at hwritten
  | ok _ => exact ⟨rfl, Tree.exists_hasRoom_of_writeText hfile hwritten⟩

lemma fileName_of_generate {s : Settings} {date : String} {d : Document} {g : Generated}
    (h : Module.generate s date d = .ok g) :
    g.fileName = Module.fileName (Module.title s.name) := by
  unfold Module.generate at h
  split at h
  · simp at h
  · obtain rfl := Except.ok.inj h
    rfl

lemma fileName_of_build {s : Settings} {date source : String} {g : Generated}
    (h : Module.build s date source = .ok g) :
    g.fileName = Module.fileName (Module.title s.name) := by
  unfold Module.build at h
  split at h
  · simp at h
  · rename_i d hparse
    cases hgenerate : Module.generate s date d with
    | error failure => simp [hgenerate, Except.mapError] at h
    | ok g' =>
      rw [hgenerate] at h
      obtain rfl := Except.ok.inj h
      exact fileName_of_generate hgenerate

/-- A run makes directories on the way to the output, and it writes one file into the output. -/
lemma run_spec (host : Host) (o : Options) (t : Tree) :
    match onTree (run host o) t with
    | (.error _, t') => ∃ t₁, t.AddsDirectories (t.OnWay o.output) t₁ ∧
        (t' = t₁ ∨ ∃ s code,
          chosenSettings o.config ("kmb/config.toml" :: host.settingsPath.toList) t = .ok s ∧
          t₁.CutsFile o.output (Module.fileName (Module.title (o.name.getD s.name))) code t')
    | (.ok outcome, t') => ∃ s file code t₁ here,
        chosenSettings o.config ("kmb/config.toml" :: host.settingsPath.toList) t = .ok s ∧
        file = Module.fileName (Module.title (o.name.getD s.name)) ∧
        outcome.path = joinPath o.output file ∧
        t.AddsDirectories (t.OnWay o.output) t₁ ∧
        t₁.HasRoom o.output file code here ∧
        t₁.PutsFile (here ++ [file]) code.toUTF8 t' := by
  rw [onTree_run]
  cases hprepared : prepared host o t with
  | error failure => exact ⟨t, .refl _ t, Or.inl rfl⟩
  | ok made =>
    obtain ⟨source, g⟩ := made
    obtain ⟨s, hchosen, hbuild⟩ := build_of_prepared hprepared
    have hname := fileName_of_build hbuild
    have hfile : IsFileName g.fileName := hname ▸ Module.isFileName_fileName _
    have hcases := delivered_cases o source g t
    dsimp only
    rcases hdelivered : delivered o source g t with ⟨result, t'⟩
    rw [hdelivered] at hcases
    cases result with
    | error failure =>
      obtain ⟨-, t₁, hmade, hinterrupted⟩ := hcases
      refine ⟨t₁, hmade, (Tree.eq_or_cutsFile hfile hinterrupted).imp_right fun hcut => ?_⟩
      exact ⟨s, g.code, hchosen, hname ▸ hcut⟩
    | ok outcome =>
      obtain ⟨t₁, hmade, hwrite, rfl⟩ := hcases
      obtain ⟨here, hroom, hputs⟩ := Tree.exists_hasRoom_of_writeText hfile hwrite
      exact ⟨s, g.fileName, g.code, t₁, here, hchosen, hname, rfl, hmade, hroom, hputs⟩

/-- **An export stays in its directory.**  Whatever the name that a model is given, the name of the
file for it is plain.  So an export writes one file, right inside the directory, and nothing else;
it does so if there is room for the file, and otherwise nothing changes, unless the disk is full and
that one file is cut short.  A run makes no more than directories on the way to the output, and it
writes one file, right inside the output, whether the name is an option or comes from the settings.
-/
theorem export_stays_inside :
    (∀ name, IsFileName (Module.fileName (Module.title name))) ∧
    (∀ s date d g, Module.generate s date d = .ok g → ∀ dir (t : Tree),
      g.fileName = Module.fileName (Module.title s.name) ∧
      match ((Module.exportTo dir g : StateM Tree _).run t).run with
      | ((.error _, _), t') => (∀ here, ¬ t.HasRoom dir g.fileName g.code here) ∧
          (t' = t ∨ t.CutsFile dir g.fileName g.code t')
      | ((.ok path, _), t') => path = joinPath dir g.fileName ∧
          ∃ here, t.HasRoom dir g.fileName g.code here ∧
            t.PutsFile (here ++ [g.fileName]) g.code.toUTF8 t') ∧
    ∀ host o (t : Tree),
      match onTree (run host o) t with
      | (.error _, t') => ∃ t₁, t.AddsDirectories (t.OnWay o.output) t₁ ∧
          (t' = t₁ ∨ ∃ s code,
            chosenSettings o.config ("kmb/config.toml" :: host.settingsPath.toList) t = .ok s ∧
            t₁.CutsFile o.output (Module.fileName (Module.title (o.name.getD s.name))) code t')
      | (.ok outcome, t') => ∃ s file code t₁ here,
          chosenSettings o.config ("kmb/config.toml" :: host.settingsPath.toList) t = .ok s ∧
          file = Module.fileName (Module.title (o.name.getD s.name)) ∧
          outcome.path = joinPath o.output file ∧
          t.AddsDirectories (t.OnWay o.output) t₁ ∧
          t₁.HasRoom o.output file code here ∧
          t₁.PutsFile (here ++ [file]) code.toUTF8 t' := by
  refine ⟨Module.isFileName_fileName, fun s date d g hgenerate dir t => ?_, run_spec⟩
  have hname := fileName_of_generate hgenerate
  have hfile : IsFileName g.fileName := hname ▸ Module.isFileName_fileName _
  exact ⟨hname, exportTo_spec hfile dir t⟩

lemma hasRoom_site (document earlier : ByteArray) (content : String) :
    (site document earlier).HasRoom "out" "etcpasswd.py" content ["out"] where
  checked := rfl
  inside := by
    have hbase : (site document earlier).base = "" := rfl
    rw [hbase]
    decide
  short := by decide
  place := by
    rw [Tree.place]
    cbv
  directory := rfl
  free := by
    have hget : (site document earlier).get? (["out"] ++ ["etcpasswd.py"]) = none := rfl
    rw [hget]
    simp
  sound := rfl

/-- A name that looks like a path outside. -/
theorem export_stays_inside_dots : ∃ d g t',
    Module.generate ⟨"../../etc/passwd", "", none⟩ "24/01/31" d = .ok g ∧
      g.fileName = "etcpasswd.py" ∧
      ((Module.exportTo "out" g : StateM Tree _).run (site smallText.toUTF8 "".toUTF8)).run.2 = t' ∧
      (site smallText.toUTF8 "".toUTF8).PutsFile ["out", "etcpasswd.py"] g.code.toUTF8 t' := by
  obtain ⟨d, c, -, hc, -⟩ := exists_compile_smallText
  have hfile : Module.fileName (Module.title "../../etc/passwd") = "etcpasswd.py" := by
    decide +kernel
  have hgenerate : ∃ g, Module.generate ⟨"../../etc/passwd", "", none⟩ "24/01/31" d = .ok g := by
    simp only [Module.generate, hc]
    exact ⟨_, rfl⟩
  obtain ⟨g, hg⟩ := hgenerate
  obtain ⟨hname, hexport⟩ :=
    export_stays_inside.2.1 _ _ _ _ hg "out" (site smallText.toUTF8 "".toUTF8)
  rw [hfile] at hname
  have hroom := hasRoom_site smallText.toUTF8 "".toUTF8 g.code
  refine ⟨d, g, _, hg, hname, rfl, ?_⟩
  rcases hrun : ((Module.exportTo "out" g : StateM Tree _).run
    (site smallText.toUTF8 "".toUTF8)).run with ⟨⟨result, g'⟩, t'⟩
  rw [hrun] at hexport
  cases result with
  | error failure => exact absurd (hname ▸ hroom) (hexport.1 ["out"])
  | ok path =>
    obtain ⟨-, here, hroom', hputs⟩ := hexport
    obtain rfl : here = ["out"] := Except.ok.inj (hroom'.place.symm.trans hroom.place)
    rwa [hname] at hputs

end Command

end NetDiagram
