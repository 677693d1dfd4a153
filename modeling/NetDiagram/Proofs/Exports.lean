import NetDiagram.Proofs.RunEffect

/-!
# Exports one after the other

A generated module can be exported several times, into several directories, and other things may
happen to the files in between.  The module itself changes in the course of this: a warning is added
to it whenever something stands in the place of its file.  The warning is added before the file is
written, so it stays if the file cannot be written: because there is a directory in its place,
because the file that is there may not be changed, because the disk is full, or for whatever reason
a file system has.

The law of this is stated over every file system.  What it depends on is whether there is something
at the path, and what becomes of the write.  In a tree of files both can be told from the tree.

## Main statements

* `Attempt.atomic_iff`: an export is atomic unless it fails and either found something in its place
  or changed the files.
* `Attempt.atomic_tree_iff`: which exports are not atomic in a tree of files.
* `exportAll_spec`: the module after any sequence of exports.
-/

namespace NetDiagram.Command

open Files (Fault FileError FileStore Item LawfulFileStore Location Tree joinPath)
open NetDiagram.Module (Generated)

/-- The warning says that a file was covered. -/
def SaysCovered (w : Diagnostic) : Prop :=
  w.code.map Code.name = some "W003"

instance (w : Diagnostic) : Decidable (SaysCovered w) :=
  inferInstanceAs (Decidable (_ = _))

/-- An export: the directory, and the files as they are when it begins. -/
structure Attempt (σ : Type) where
  dir : String
  files : σ

namespace Attempt

/-! ## Single exports -/

section

variable {σ : Type} (a : Attempt σ) (g : Generated)

/-- The path of the file. -/
def path (file : String) : String :=
  joinPath a.dir file

/-- The warning that a file in its place was covered. -/
def warning (file : String) : Diagnostic :=
  (Flow.Notice.coveredFile (a.path file)).diagnostic

/-- The module with the notice that a file was covered. -/
def marked : Generated :=
  g.addNotice (.coveredFile (a.path g.fileName))

lemma saysCovered_warning (file : String) : SaysCovered (a.warning file) :=
  (Flow.Notice.code_eq_iff (c := .coveredFile)).1 rfl

lemma warnings_marked : (a.marked g).warnings = g.warnings ++ [a.warning g.fileName] :=
  List.map_append

lemma marked_ne : a.marked g ≠ g := by
  intro h
  have hwarnings := warnings_marked a g
  rw [h] at hwarnings
  simp at hwarnings

variable [FileStore (StateM σ)]

/-- There is something in the place of the file. -/
def Finds (file : String) : Prop :=
  isThere a.files (a.path file) = true

/-- What becomes of the write, and the files afterwards. -/
def written : Except FileError Unit × σ :=
  write a.files (a.path g.fileName) g.code

/-- The file cannot be written. -/
def Fails : Prop :=
  (a.written g).1.isOk = false

/-- The write changes the files. -/
def Changes : Prop :=
  (a.written g).2 ≠ a.files

instance (file : String) : Decidable (a.Finds file) :=
  inferInstanceAs (Decidable (_ = _))

instance : Decidable (a.Fails g) :=
  inferInstanceAs (Decidable (_ = _))

/-- The result of the export, the module afterwards, and the files afterwards. -/
def run : (Except Failure String × Generated) × σ :=
  (Module.exportTo a.dir g : StateM σ (Except Failure String × Generated)).run a.files

/-- An export is atomic.  If it fails, the module and the files are as before.  If it succeeds, the
module has one more warning, with code `W003`, exactly if there was something in its place, and no
more warnings otherwise. -/
def Atomic : Prop :=
  match a.run g with
  | ((.error _, g'), files) => g' = g ∧ files = a.files
  | ((.ok _, g'), _) =>
    ((∃ w, SaysCovered w ∧ g'.warnings = g.warnings ++ [w]) ↔ a.Finds g.fileName) ∧
      (¬ a.Finds g.fileName → g'.warnings = g.warnings)

lemma noted_eq :
    noted a.files (a.path g.fileName) g = if a.Finds g.fileName then a.marked g else g := rfl

variable [LawfulFileStore σ]

/-- **How an export ends.**  The notice depends on what was there, and on nothing else. -/
theorem run_eq :
    a.run g =
      ((((a.written g).1.mapError (Failure.exporting (a.path g.fileName))).map
          fun _ => a.path g.fileName,
        if a.Finds g.fileName then a.marked g else g), (a.written g).2) := by
  have hrun := run_exportTo a.dir g a.files
  rw [← noted_eq]
  unfold run written path
  rw [hrun]
  dsimp only
  rcases write a.files (joinPath a.dir g.fileName) g.code with ⟨result, files⟩
  cases result with
  | error cause => rfl
  | ok _ => rfl

lemma module_run : (a.run g).1.2 = if a.Finds g.fileName then a.marked g else g := by
  rw [run_eq]

lemma files_run : (a.run g).2 = (a.written g).2 := by
  rw [run_eq]

lemma fails_run_iff : (a.run g).1.1.isOk = false ↔ a.Fails g := by
  rw [run_eq, Fails]
  cases (a.written g).1 <;> rfl

/-- **An export is atomic unless it fails and leaves a trace.**  The trace is the warning, if there
was something in the place of the file, or a change of the files. -/
theorem atomic_iff :
    a.Atomic g ↔ ¬ (a.Fails g ∧ (a.Finds g.fileName ∨ a.Changes g)) := by
  unfold Atomic Fails Changes
  rw [run_eq]
  rcases a.written g with ⟨result, files⟩
  cases result with
  | error cause =>
    simp only [Except.map, Except.mapError, Except.isOk, Except.toBool, true_and, not_or, not_not]
    by_cases hfinds : a.Finds g.fileName
    · simp [hfinds, marked_ne]
    · simp [hfinds]
  | ok _ =>
    simp only [Except.map, Except.mapError, Except.isOk, Except.toBool, Bool.true_eq_false,
      false_and, not_false_eq_true, iff_true]
    by_cases hfinds : a.Finds g.fileName
    · have hgrown : ∃ w, SaysCovered w ∧ (a.marked g).warnings = g.warnings ++ [w] :=
        ⟨_, a.saysCovered_warning g.fileName, a.warnings_marked g⟩
      simp [hfinds, hgrown]
    · simp [hfinds]

end

/-! ## Single exports in a tree of files -/

section

variable (a : Attempt Tree) (file : String) (g : Generated)

/-- What stands in the place of the file. -/
def found : Option Item :=
  (a.files.item (a.path file)).toOption

/-- There is a file in its place. -/
def Covers : Prop :=
  ∃ old, a.found file = some (.file old)

/-- There is a directory in its place. -/
def Blocked : Prop :=
  a.found file = some .directory

/-- The file could be there, but the place is locked. -/
def Locked : Prop :=
  ∃ loc, a.files.destination (a.path file) = .ok loc ∧ a.files.fault? loc = some .locked

/-- The file could be there, but the disk has no room for all of it. -/
def Full : Prop :=
  ∃ loc room, a.files.destination (a.path g.fileName) = .ok loc ∧
    a.files.fault? loc = some (.full room) ∧ room < g.code.toUTF8.size

variable {a file g}

lemma finds_iff : a.Finds file ↔ a.Covers file ∨ a.Blocked file := by
  have hthere : a.Finds file ↔ (a.found file).isSome := by
    change a.files.pathExists (a.path file) = true ↔ _
    unfold Tree.pathExists found
    cases a.files.item (a.path file) <;> simp [Except.toOption]
  rw [hthere, Covers, Blocked]
  cases a.found file with
  | none => simp
  | some item => cases item <;> simp

/-- Where a file can be, there is one or there is nothing. -/
lemma not_blocked_of_destination {loc : Location}
    (h : a.files.destination (a.path file) = .ok loc) :
    ¬ a.Blocked file ∧ (a.Covers file ↔ (a.files.get? loc).isSome) := by
  obtain ⟨hfind, hdir, hslash⟩ := Tree.destination_eq_ok_iff.1 h
  have hslash' : ((a.path file).toList.getLast? == some '/') = false := by simpa using hslash
  unfold Blocked Covers found
  cases hget : a.files.get? loc with
  | none => simp [Tree.item, hfind, hget, Except.toOption]
  | some item =>
    cases item with
    | directory => exact absurd hget hdir
    | file old => simp [Tree.item, hfind, hget, hslash', Except.toOption]

/-- Where no file can be, nothing is found but a directory. -/
lemma not_covers_of_destination {cause : FileError}
    (h : a.files.destination (a.path file) = .error cause) : ¬ a.Covers file := by
  rintro ⟨old, hold⟩
  unfold found at hold
  cases hitem : a.files.item (a.path file) with
  | error cause => simp [hitem, Except.toOption] at hold
  | ok item =>
    obtain rfl : item = .file old := by simpa [hitem, Except.toOption] using hold
    -- Where an item that is no directory was found, its place could be written to.
    have hdest : ∃ loc, a.files.destination (a.path file) = .ok loc := by
      unfold Tree.item at hitem
      split at hitem
      · simp at hitem
      · rename_i loc hfind
        split at hitem
        · simp at hitem
        · simp at hitem
        · rename_i hget
          refine ⟨loc, Tree.destination_eq_ok_iff.2 ⟨hfind, by rw [hget]; simp, fun hslash => ?_⟩⟩
          simp [hslash] at hitem
    obtain ⟨loc, hloc⟩ := hdest
    simp [hloc] at h

/-- **Which exports are not atomic**: those that find a directory, those that find a file in a
locked place, and those that find the disk full, be there a file or not. -/
theorem atomic_tree_iff (a : Attempt Tree) (g : Generated) :
    a.Atomic g ↔
      ¬ (a.Blocked g.fileName ∨ a.Covers g.fileName ∧ a.Locked g.fileName ∨ a.Full g) := by
  have hwritten : a.written g = a.files.writeText (a.path g.fileName) g.code := rfl
  rw [atomic_iff, not_iff_not, finds_iff]
  unfold Fails Changes Locked Full
  rw [hwritten]
  cases hdest : a.files.destination (a.path g.fileName) with
  | error cause =>
    -- nothing is written, so all depends on the notice
    have hcovers := not_covers_of_destination hdest
    simp [Tree.writeText_of_error hdest, hcovers, Except.isOk, Except.toBool]
  | ok loc =>
    obtain ⟨hblocked, hcovers⟩ := not_blocked_of_destination hdest
    cases hfault : a.files.fault? loc with
    | none =>
      have hsound : (a.files.fault? loc).bind (Fault.refusal? g.code.toUTF8) = none := by
        rw [hfault]
        rfl
      simp [Tree.writeText_of_sound hdest hsound, hblocked, hfault, Except.isOk, Except.toBool]
    | some fault =>
      cases fault with
      | locked =>
        simp [Tree.writeText_of_locked hdest hfault, hblocked, hfault, Except.isOk, Except.toBool]
      | full room =>
        by_cases hroom : room < g.code.toUTF8.size
        · -- if there was nothing before, there is the beginning of a file now
          have htrace : a.Covers g.fileName ∨
              a.files.put loc (.file (g.code.toUTF8.extract 0 room)) ≠ a.files := by
            rw [hcovers, or_iff_not_imp_left, Option.not_isSome_iff_eq_none]
            exact Tree.put_ne
          have hroom' : room < g.code.utf8ByteSize := by simpa using hroom
          simpa [Tree.writeText_of_full hdest hfault hroom, hblocked, hfault, hroom', Except.isOk,
            Except.toBool] using htrace
        · have hsound : (a.files.fault? loc).bind (Fault.refusal? g.code.toUTF8) = none := by
            rw [hfault]
            exact if_neg hroom
          have hroom' : ¬ room < g.code.utf8ByteSize := by simpa using hroom
          simp [Tree.writeText_of_sound hdest hsound, hblocked, hfault, hroom', Except.isOk,
            Except.toBool]

lemma run_of_blocked (h : a.Blocked g.fileName) :
    ∃ cause, a.run g = ((.error (.exporting (a.path g.fileName) cause), a.marked g), a.files) := by
  cases hdest : a.files.destination (a.path g.fileName) with
  | error cause =>
    have hwritten : a.written g = (.error cause, a.files) := Tree.writeText_of_error hdest
    refine ⟨cause, ?_⟩
    rw [run_eq, hwritten, if_pos (finds_iff.2 (Or.inr h))]
    rfl
  | ok loc => exact absurd h (not_blocked_of_destination hdest).1

lemma of_not_fails (h : ¬ a.Fails g) :
    (a.Finds g.fileName ↔ a.Covers g.fileName) ∧
      (a.written g).2.readText (a.path g.fileName) = .ok g.code := by
  have hwritten : a.written g = a.files.writeText (a.path g.fileName) g.code := rfl
  unfold Fails at h
  rw [hwritten] at h ⊢
  rcases hwrite : a.files.writeText (a.path g.fileName) g.code with ⟨result, t⟩
  cases result with
  | error cause => simp [hwrite, Except.isOk, Except.toBool] at h
  | ok _ =>
    obtain ⟨loc, hloc, -⟩ := Tree.exists_written hwrite
    have hdest := Tree.destination_eq_ok_iff.2 ⟨hloc.find, hloc.notDirectory, hloc.noSlash⟩
    rw [finds_iff, or_iff_left (not_blocked_of_destination hdest).1]
    exact ⟨Iff.rfl, hloc.readText_eq⟩

end

end Attempt

/-! ## Sequences of exports -/

section

variable {σ : Type} [FileStore (StateM σ)]

/-- The module after exports, one after the other.  Each of them finds its own files: those that
the one before it left, or what has become of them since. -/
def exportAll (g : Generated) (history : List (Attempt σ)) : Generated :=
  history.foldl (fun g a => (a.run g).1.2) g

variable [LawfulFileStore σ]

/-- **What exports change.**  After any sequence of exports the module is the same but for its
warnings: there is one more for every export that found something in the place of its file. -/
theorem exportAll_spec (g : Generated) (history : List (Attempt σ)) :
    (exportAll g history).fileName = g.fileName ∧ (exportAll g history).code = g.code ∧
      (exportAll g history).warnings = g.warnings ++
        (history.filter fun a => a.Finds g.fileName).map (·.warning g.fileName) := by
  induction history generalizing g with
  | nil => simp [exportAll]
  | cons a history ih =>
    have hrest : exportAll g (a :: history) = exportAll (a.run g).1.2 history := rfl
    rw [hrest, a.module_run g]
    by_cases hfinds : a.Finds g.fileName
    · rw [if_pos hfinds, List.filter_cons_of_pos (by simpa using hfinds)]
      obtain ⟨hfile, hcode, hwarnings⟩ := ih (a.marked g)
      refine ⟨hfile, hcode, ?_⟩
      rw [hwarnings, a.warnings_marked g, List.append_assoc]
      rfl
    · rw [if_neg hfinds, List.filter_cons_of_neg (by simpa using hfinds)]
      exact ih g

/-- A module that was built has no warning that a file was covered, and all that exports add are
such warnings. -/
lemma countP_saysCovered {s : Module.Settings} {date source : String} {g : Generated}
    (h : Module.build s date source = .ok g) (history : List (Attempt σ)) :
    (exportAll g history).warnings.countP (fun w => SaysCovered w) =
      history.countP (fun a => a.Finds g.fileName ∧ ¬ a.Fails g) +
        history.countP (fun a => a.Finds g.fileName ∧ a.Fails g) := by
  have hbuilt : g.warnings.countP (fun w => SaysCovered w) = 0 := by
    rw [List.countP_eq_zero]
    intro w hw
    have hnot : ¬ SaysCovered w := not_covered_of_build h hw
    simpa using hnot
  have hadded : ∀ w ∈ (history.filter fun a => a.Finds g.fileName).map (·.warning g.fileName),
      decide (SaysCovered w) = true := by
    intro w hw
    obtain ⟨a, -, rfl⟩ := List.mem_map.1 hw
    simpa using a.saysCovered_warning g.fileName
  rw [(exportAll_spec g history).2.2, List.countP_append, hbuilt, Nat.zero_add,
    List.countP_eq_length.2 hadded, List.length_map, ← List.countP_eq_length_filter,
    List.countP_eq_countP_filter_add _ _ (fun a => decide (¬ a.Fails g)), List.countP_filter,
    List.countP_filter]
  simp only [Bool.decide_and, decide_not, Bool.not_not]

end

/-- **An export is atomic unless it fails and leaves a trace.**  In every file system, and after any
sequence of exports, which change nothing of the module but its warnings, an export that fails
leaves the warning that a file was covered if there was something in its place; and if the write has
changed the files, it leaves them so.  All other exports are atomic.  So there are as many warnings
that a file was covered as there are exports that covered one, and one more for every export that
found something and failed.  In a tree of files, an export fails and leaves a trace exactly if there
is a directory in its place, or a file in a locked place, or if the disk is full; and one that
succeeds says that a file was covered exactly if there was a file. -/
theorem export_atomic_iff {σ : Type} [FileStore (StateM σ)] [LawfulFileStore σ] (g₀ : Generated)
    (history : List (Attempt σ)) (a : Attempt σ) :
    let g := exportAll g₀ history
    (a.Atomic g ↔ ¬ (a.Fails g ∧ (a.Finds g.fileName ∨ a.Changes g))) ∧
    (a.run g).1.2 = (if a.Finds g.fileName then a.marked g else g) ∧
    ((a.run g).1.1.isOk = false ↔ a.Fails g) ∧ (a.run g).2 = (a.written g).2 ∧
    g.fileName = g₀.fileName ∧ g.code = g₀.code ∧
    g.warnings = g₀.warnings ++
      (history.filter fun b => b.Finds g₀.fileName).map (·.warning g₀.fileName) ∧
    (∀ s date source, Module.build s date source = .ok g₀ →
      g.warnings.countP (fun w => SaysCovered w) =
        history.countP (fun b => b.Finds g₀.fileName ∧ ¬ b.Fails g₀) +
          history.countP (fun b => b.Finds g₀.fileName ∧ b.Fails g₀)) ∧
    ∀ (b : Attempt Tree) (m : Generated),
      (b.Atomic m ↔
        ¬ (b.Blocked m.fileName ∨ b.Covers m.fileName ∧ b.Locked m.fileName ∨ b.Full m)) ∧
      (¬ b.Fails m → (b.Finds m.fileName ↔ b.Covers m.fileName) ∧
        (b.written m).2.readText (b.path m.fileName) = .ok m.code) := by
  obtain ⟨hfile, hcode, hwarnings⟩ := exportAll_spec g₀ history
  exact ⟨a.atomic_iff _, a.module_run _, a.fails_run_iff _, a.files_run _, hfile, hcode,
    hwarnings, fun _ _ _ hbuild => countP_saysCovered hbuild history,
    fun b m => ⟨b.atomic_tree_iff m, Attempt.of_not_fails⟩⟩

/-- A directory with four others inside.  In the place of the module there is a directory in the
first, a file that is locked in the second, no room in the third, and nothing in the fourth. -/
def crowded : Tree where
  items := [(["out"], .directory), (["out", "model.py"], .directory), (["old"], .directory),
    (["old", "model.py"], .file "".toUTF8), (["full"], .directory), (["free"], .directory)]
  fault? loc := [(["old", "model.py"], .locked), (["full", "model.py"], .full 0)].lookup loc

/-- The export into one of them. -/
def into (dir : String) : Attempt Tree :=
  ⟨dir, crowded⟩

lemma blocked_into : (into "out").Blocked "model.py" := by
  have hfind : crowded.find "out/model.py" = .ok ["out", "model.py"] := by
    rw [find_eq_locate rfl]
    rfl
  have hget : crowded.get? ["out", "model.py"] = some .directory := rfl
  have hitem : crowded.item "out/model.py" = .ok .directory := by
    simp only [Tree.item, hfind, hget]
  have hpath : joinPath "out" "model.py" = "out/model.py" := by decide
  simp only [Attempt.Blocked, Attempt.found, Attempt.path, into, hpath, hitem]
  rfl

lemma destination_into (dir : String) (h : dir ∈ ["old", "full", "free"]) :
    (into dir).files.destination ((into dir).path "model.py") = .ok [dir, "model.py"] := by
  rw [Tree.destination_eq_ok_iff]
  simp only [List.mem_cons, List.not_mem_nil, or_false] at h
  rcases h with rfl | rfl | rfl
  · have hpath : (into "old").path "model.py" = "old/model.py" := by decide
    have hget : (into "old").files.get? ["old", "model.py"] = some (.file "".toUTF8) := rfl
    rw [hpath, find_eq_locate rfl, hget]
    exact ⟨rfl, by simp, by decide⟩
  · have hpath : (into "full").path "model.py" = "full/model.py" := by decide
    have hget : (into "full").files.get? ["full", "model.py"] = none := rfl
    rw [hpath, find_eq_locate rfl, hget]
    exact ⟨rfl, by simp, by decide⟩
  · have hpath : (into "free").path "model.py" = "free/model.py" := by decide
    have hget : (into "free").files.get? ["free", "model.py"] = none := rfl
    rw [hpath, find_eq_locate rfl, hget]
    exact ⟨rfl, by simp, by decide⟩

lemma finds_into :
    (into "out").Finds "model.py" ∧ (into "old").Finds "model.py" ∧
      ¬ (into "full").Finds "model.py" ∧ ¬ (into "free").Finds "model.py" := by
  obtain ⟨-, hcovers⟩ := Attempt.not_blocked_of_destination (destination_into "old" (by simp))
  obtain ⟨hfull, hnone⟩ := Attempt.not_blocked_of_destination (destination_into "full" (by simp))
  obtain ⟨hfree, hnone'⟩ := Attempt.not_blocked_of_destination (destination_into "free" (by simp))
  simp only [Attempt.finds_iff, hcovers, hnone, hnone', not_or]
  exact ⟨Or.inr blocked_into, Or.inl rfl, ⟨Bool.false_ne_true, hfull⟩, ⟨Bool.false_ne_true, hfree⟩⟩

lemma locked_into : (into "old").Covers "model.py" ∧ (into "old").Locked "model.py" := by
  have hold := destination_into "old" (by simp)
  exact ⟨(Attempt.not_blocked_of_destination hold).2.2 rfl, _, hold, rfl⟩

lemma full_into {g : Generated} (hname : g.fileName = "model.py") (hcode : 0 < g.code.toUTF8.size) :
    (into "full").Full g := by
  refine ⟨["full", "model.py"], 0, ?_, rfl, hcode⟩
  rw [hname, destination_into "full" (by simp)]

lemma not_full_into {g : Generated} (hname : g.fileName = "model.py") : ¬ (into "free").Full g := by
  rintro ⟨loc, room, hloc, hroom, -⟩
  rw [hname, destination_into "free" (by simp)] at hloc
  obtain rfl := Except.ok.inj hloc
  have hsound : (into "free").files.fault? ["free", "model.py"] = none := rfl
  simp [hsound] at hroom

/-- A module that was built, with the file name of these exports. -/
lemma exists_build_model :
    ∃ g, Module.build {} "24/01/31" smallText = .ok g ∧ g.fileName = "model.py" ∧
      0 < g.code.toUTF8.size := by
  obtain ⟨c, hbuild⟩ := exists_build_smallText {} "24/01/31"
  have hline : 0 < "\n".utf8ByteSize := by decide
  refine ⟨_, hbuild, fileName_model, ?_⟩
  rw [String.toUTF8_eq_toByteArray, Module.moduleText, String.size_toByteArray,
    String.utf8ByteSize_append]
  exact Nat.lt_of_lt_of_le hline (Nat.le_add_left _ _)

/-- **A directory is said to be covered.**  The export fails and nothing is written, but the module
has a warning that it had not before. -/
theorem blocked_export_not_atomic :
    ∃ g failure g', Module.build {} "24/01/31" smallText = .ok g ∧
      (into "out").run g = ((.error failure, g'), (into "out").files) ∧
      g'.warnings = g.warnings ++ [(into "out").warning "model.py"] ∧
      ¬ (into "out").Atomic g := by
  obtain ⟨g, hbuild, hname, -⟩ := exists_build_model
  have hblocked : (into "out").Blocked g.fileName := hname ▸ blocked_into
  obtain ⟨cause, hrun⟩ := Attempt.run_of_blocked hblocked
  refine ⟨g, _, (into "out").marked g, hbuild, hrun, ?_, ?_⟩
  · rw [Attempt.warnings_marked, hname]
  · rw [Attempt.atomic_tree_iff, not_not]
    exact Or.inl hblocked

/-- Three exports fail, each for its own reason.  Two of them leave a warning, which stays when the
module is exported to where nothing is covered; the third leaves an empty file. -/
theorem export_atomic_iff_crowded :
    ∃ g, Module.build {} "24/01/31" smallText = .ok g ∧
      ¬ (into "out").Atomic g ∧ ¬ (into "old").Atomic g ∧ ¬ (into "full").Atomic g ∧
      (into "free").Atomic (exportAll g [into "out", into "old", into "full"]) ∧
      (exportAll g [into "out", into "old", into "full", into "free"]).warnings.countP
        (fun w => SaysCovered w) = 2 ∧
      [into "out", into "old", into "full", into "free"].countP
        (fun a => a.Finds "model.py" ∧ ¬ a.Fails g) = 0 := by
  obtain ⟨g, hbuild, hname, hcode⟩ := exists_build_model
  obtain ⟨-, -, -, -, -, -, -, -, htree⟩ := export_atomic_iff g [] (into "free")
  have hout : ¬ (into "out").Atomic g := by
    rw [(htree _ _).1, not_not, hname]
    exact Or.inl blocked_into
  have hold : ¬ (into "old").Atomic g := by
    rw [(htree _ _).1, not_not, hname]
    exact Or.inr (Or.inl locked_into)
  have hfull : ¬ (into "full").Atomic g := by
    rw [(htree _ _).1, not_not]
    exact Or.inr (Or.inr (full_into hname hcode))
  have hfails : ∀ a : Attempt Tree, ¬ a.Atomic g → a.Fails g := by
    intro a ha
    obtain ⟨hatomic, -⟩ := export_atomic_iff g [] a
    exact (not_not.1 (mt hatomic.2 ha)).1
  obtain ⟨-, -, -, -, hfile, -⟩ :=
    export_atomic_iff g [into "out", into "old", into "full"] (into "free")
  obtain ⟨-, -, -, -, -, -, -, hcount, -⟩ :=
    export_atomic_iff g [into "out", into "old", into "full", into "free"] (into "free")
  refine ⟨g, hbuild, hout, hold, hfull, ?_, ?_, ?_⟩
  · rw [(htree _ _).1]
    rintro (hblocked | ⟨hcovers, -⟩ | hroom)
    · rw [hfile, hname] at hblocked
      exact finds_into.2.2.2 (Attempt.finds_iff.2 (Or.inr hblocked))
    · rw [hfile, hname] at hcovers
      exact finds_into.2.2.2 (Attempt.finds_iff.2 (Or.inl hcovers))
    · exact not_full_into (hfile.trans hname) hroom
  · rw [hcount _ _ _ hbuild, hname]
    simp [finds_into, hfails _ hout, hfails _ hold]
  · simp [finds_into, hfails _ hout, hfails _ hold]

end NetDiagram.Command
