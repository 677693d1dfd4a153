import Mathlib.Tactic.Lemma
import NetDiagram.Files.Tree

/-!
# What operations do to a tree of files

Making directories adds directories on the way to a path, and leaves all else as it is.  Writing
puts one file where the path leads to; if it fails, nothing changes, or that one file is cut short.
The names of a path lead through directories only, and these stay; so a path leads to the same place
before and after.

## Main statements

* `AddsDirectories.makeDirectories`: directories are only made on the way to the path, whether all
  of them can be made or not.
* `AddsDirectories.find`: a path that leads somewhere still leads there when directories are added.
* `Closed.find`: a path without a way up that leads to an item of a closed tree, when directories
  have been added, led to it before.
* `writeText_cases`: what a write leaves, whether it succeeds or not.
* `Written.readText_eq`: what is written to a path is what is read from it.
-/

namespace NetDiagram.Files

lemma fromUTF8?_toUTF8 (s : String) : String.fromUTF8? s.toUTF8 = some s := by
  rw [String.fromUTF8?, String.toUTF8_eq_toByteArray, dif_pos s.isValidUTF8]
  rfl

namespace Tree

variable {t t' t'' : Tree} {loc : Location}

/-! ## Items -/

lemma get?_put (hloc : loc ≠ []) (item : Item) (l : Location) :
    (t.put loc item).get? l = if l = loc then some item else t.get? l := by
  have hfilter : l ≠ loc → (t.items.filter (·.1 != loc)).lookup l = t.items.lookup l := by
    intro hl
    induction t.items with
    | nil => rfl
    | cons entry entries ih =>
      obtain ⟨l', item'⟩ := entry
      by_cases hl' : l' = loc
      · have hne : (l == l') = false := by simpa [hl'] using hl
        rw [List.filter_cons_of_neg (by simp [hl']), List.lookup_cons, hne]
        exact ih
      · rw [List.filter_cons_of_pos (by simpa using hl'), List.lookup_cons, List.lookup_cons, ih]
  unfold get? put
  by_cases hl : l = loc
  · subst hl
    simp [hloc]
  · have hne : (l == loc) = false := by simpa using hl
    simp [hl, hne, List.lookup_cons, hfilter hl]

lemma put_ne {item : Item} (h : t.get? loc = none) : t.put loc item ≠ t := by
  intro heq
  have hloc : loc ≠ [] := by
    rintro rfl
    simp [get?] at h
  have hget := get?_put hloc item loc (t := t)
  rw [heq, h] at hget
  simp at hget

/-! ## Locations -/

/-- A name leads somewhere if it is not too long and, unless it is the last one, leads to a
directory from which the others lead there. -/
lemma locate_cons_eq_ok_iff {dir : Location} {name : String} {rest : List String} :
    t.locate dir (name :: rest) = .ok loc ↔
      (name.utf8ByteSize ≤ 255 ∧ t.leaves dir name = false) ∧
        (rest = [] ∧ loc = enter dir name ∨
          rest ≠ [] ∧ t.get? (enter dir name) = some .directory ∧
            t.locate (enter dir name) rest = .ok loc) := by
  rw [locate]
  by_cases hname : 255 < name.utf8ByteSize
  · simp [hname, Nat.not_le.2 hname]
  · rw [if_neg hname]
    cases t.leaves dir name with
    | true => simp
    | false =>
      cases rest with
      | nil => simp [Nat.not_lt.1 hname, eq_comm]
      | cons next rest =>
        cases t.get? (enter dir name) with
        | none => simp
        | some item => cases item <;> simp [Nat.not_lt.1 hname]

lemma leaves_of_ne (t : Tree) (dir : Location) {name : String} (h : name ≠ "..") :
    t.leaves dir name = false := by
  simp [leaves, h]

lemma leaves_congr (hbase : t'.base = t.base) (dir : Location) (name : String) :
    t'.leaves dir name = t.leaves dir name := by
  rw [leaves, leaves, hbase]

lemma relative_congr (hbase : t'.base = t.base) (path : String) :
    t'.relative path = t.relative path := by
  rw [relative, relative, isBelow, isBelow, hbase]

lemma checkPath_congr (hbase : t'.base = t.base) (path : String) :
    t'.checkPath path = t.checkPath path := by
  rw [checkPath, checkPath, isOutside, isOutside, isBelow, isBelow, hbase]

/-- Names that lead somewhere lead where entering them one after the other does. -/
lemma locate_eq {dir : Location} {path : List String} (h : t.locate dir path = .ok loc) :
    loc = path.foldl enter dir := by
  induction path generalizing dir with
  | nil => exact (Except.ok.inj h).symm
  | cons name rest ih =>
    rcases (locate_cons_eq_ok_iff.1 h).2 with ⟨rfl, rfl⟩ | ⟨-, -, hrest⟩
    · rfl
    · exact ih hrest

lemma locate_mono {dir : Location} {path : List String} (hbase : t'.base = t.base)
    (hdirs : ∀ l, t.get? l = some .directory → t'.get? l = some .directory)
    (h : t.locate dir path = .ok loc) : t'.locate dir path = .ok loc := by
  induction path generalizing dir with
  | nil => exact h
  | cons name rest ih =>
    obtain ⟨hname, hlast | ⟨hne, hget, hrest⟩⟩ := locate_cons_eq_ok_iff.1 h
    all_goals rw [← leaves_congr hbase] at hname
    · exact locate_cons_eq_ok_iff.2 ⟨hname, Or.inl hlast⟩
    · exact locate_cons_eq_ok_iff.2 ⟨hname, Or.inr ⟨hne, hdirs _ hget, ih hrest⟩⟩

lemma find_mono {path : String} (hbase : t'.base = t.base)
    (hdirs : ∀ l, t.get? l = some .directory → t'.get? l = some .directory)
    (h : t.find path = .ok loc) : t'.find path = .ok loc := by
  unfold find at h ⊢
  rw [checkPath_congr hbase]
  split at h
  · simp at h
  · rw [relative_congr hbase]
    exact locate_mono hbase hdirs h

/-! ## Directories -/

/-- The second tree is the first one with further directories, at locations of the given kind. -/
structure AddsDirectories (P : Location → Prop) (t t' : Tree) : Prop where
  base : t'.base = t.base
  fault? : t'.fault? = t.fault?
  get? : ∀ l, t'.get? l = t.get? l ∨ (t.get? l = none ∧ t'.get? l = some .directory ∧ P l)

/-- A place that the path leads through, or the one that it leads to. -/
def OnWay (t : Tree) (path : String) (l : Location) : Prop :=
  ∃ part, part <+: names (t.relative path) ∧ l = part.foldl enter []

namespace AddsDirectories

variable {P Q : Location → Prop}

lemma refl (P : Location → Prop) (t : Tree) : AddsDirectories P t t :=
  ⟨rfl, rfl, fun _ => Or.inl rfl⟩

lemma trans (h : AddsDirectories P t t') (h' : AddsDirectories P t' t'') :
    AddsDirectories P t t'' where
  base := h'.base.trans h.base
  fault? := h'.fault?.trans h.fault?
  get? l := by
    rcases h'.get? l with heq' | ⟨hnone', hdir', hP'⟩
    · rw [heq']
      exact h.get? l
    · rcases h.get? l with heq | ⟨-, hdir, -⟩
      · exact Or.inr ⟨heq ▸ hnone', hdir', hP'⟩
      · simp [hdir] at hnone'

lemma mono (h : AddsDirectories P t t') (hPQ : ∀ l, P l → Q l) : AddsDirectories Q t t' :=
  ⟨h.base, h.fault?, fun l => (h.get? l).imp_right fun ⟨hnone, hdir, hP⟩ => ⟨hnone, hdir, hPQ l hP⟩⟩

lemma directory (h : AddsDirectories P t t') {l : Location} (hl : t.get? l = some .directory) :
    t'.get? l = some .directory := by
  rcases h.get? l with heq | ⟨hnone, -, -⟩
  · rw [heq, hl]
  · simp [hnone] at hl

/-- What is no directory in the end was there before. -/
lemma get?_eq (h : AddsDirectories P t t') {l : Location} (hl : t'.get? l ≠ some .directory) :
    t'.get? l = t.get? l := by
  rcases h.get? l with heq | ⟨-, hdir, -⟩
  · exact heq
  · exact absurd hdir hl

lemma find (h : AddsDirectories P t t') {path : String} (hfind : t.find path = .ok loc) :
    t'.find path = .ok loc :=
  find_mono h.base (fun _ => h.directory) hfind

lemma put (hnone : t.get? loc = none) (hloc : P loc) :
    AddsDirectories P t (t.put loc .directory) := by
  have hne : loc ≠ [] := by
    rintro rfl
    simp [Tree.get?] at hnone
  refine ⟨rfl, rfl, fun l => ?_⟩
  rw [get?_put hne]
  by_cases hl : l = loc
  · exact Or.inr ⟨hl ▸ hnone, if_pos hl, hl ▸ hloc⟩
  · exact Or.inl (if_neg hl)

lemma makeDirectory {path : List String} (h : t.makeDirectory path = .ok t') :
    AddsDirectories (· = path.foldl enter []) t t' := by
  unfold Tree.makeDirectory at h
  split at h
  · simp at h
  · rename_i loc hlocate
    split at h
    · simp at h
    · simp at h
    · rename_i hnone _
      obtain rfl := Except.ok.inj h
      exact put hnone (locate_eq hlocate)

lemma ensureDirectory {path : List String} (h : t.ensureDirectory path = .ok t') :
    AddsDirectories (· = path.foldl enter []) t t' := by
  unfold Tree.ensureDirectory at h
  split at h
  · rename_i hmade
    obtain rfl := Except.ok.inj h
    exact makeDirectory hmade
  · split at h
    · obtain rfl := Except.ok.inj h
      exact refl _ _
    · simp at h

/-- Directories are made at the place that the names lead to, and on the way to it. -/
lemma makeWithin (t : Tree) (path above : List String) :
    AddsDirectories
      (fun l => l = path.foldl enter [] ∨ ∃ part, part <+: above.reverse ∧ l = part.foldl enter [])
      t (t.makeWithin path above).2 := by
  -- what is made for the names above lies on the way to the path
  induction above generalizing path with
  | nil =>
    unfold Tree.makeWithin
    split
    · rename_i hensure
      exact (ensureDirectory hensure).mono fun _ => Or.inl
    · exact refl _ _
  | cons name above ih =>
    unfold Tree.makeWithin
    split
    · rename_i hensure
      exact (ensureDirectory hensure).mono fun _ => Or.inl
    · have habove := (ih (name :: above).reverse).mono
        (Q := fun l => l = path.foldl enter [] ∨
          ∃ part, part <+: (name :: above).reverse ∧ l = part.foldl enter []) fun l hl => by
        rcases hl with rfl | ⟨part, hpart, rfl⟩
        · exact Or.inr ⟨_, List.prefix_rfl, rfl⟩
        · rw [List.reverse_cons]
          exact Or.inr ⟨part, hpart.trans (List.prefix_append _ _), rfl⟩
      split
      · rename_i hmade
        rwa [hmade] at habove
      · rename_i hmade
        rw [hmade] at habove
        split
        · rename_i hensure
          exact habove.trans ((ensureDirectory hensure).mono fun _ => Or.inl)
        · exact habove
    · exact refl _ _

/-- Dots on the way make no difference to where it leads. -/
lemma exists_prefix_of_filter {names part : List String} (h : part <+: names.filter (· != ".")) :
    ∃ part', part' <+: names ∧ ∀ dir, part'.foldl enter dir = part.foldl enter dir := by
  induction names generalizing part with
  | nil => exact ⟨part, h, fun _ => rfl⟩
  | cons name names ih =>
    by_cases hdot : name = "."
    · rw [List.filter_cons_of_neg (by simp [hdot])] at h
      obtain ⟨part', hpart', heq⟩ := ih h
      refine ⟨name :: part', List.cons_prefix_cons.2 ⟨rfl, hpart'⟩, fun dir => ?_⟩
      rw [List.foldl_cons, ← heq, enter, if_pos (by simp [hdot])]
    · rw [List.filter_cons_of_pos (by simpa using hdot)] at h
      rcases List.prefix_cons_iff.1 h with rfl | ⟨rest, rfl, hrest⟩
      · exact ⟨[], List.nil_prefix, fun _ => rfl⟩
      · obtain ⟨part', hpart', heq⟩ := ih hrest
        exact ⟨name :: part', List.cons_prefix_cons.2 ⟨rfl, hpart'⟩,
          fun dir => heq (enter dir name)⟩

/-- The names above those of a path lead to places on the way. -/
lemma exists_prefix_of_namesAbove {names part : List String}
    (h : part <+: (namesAbove names).reverse) :
    ∃ part', part' <+: names ∧ part'.foldl enter [] = part.foldl enter [] := by
  cases names with
  | nil => exact ⟨part, h, rfl⟩
  | cons first rest =>
    have habove : (namesAbove (first :: rest)).reverse <+: first :: rest.filter (· != ".") := by
      have hsuffix := List.drop_suffix 1 (first :: rest.filter (· != ".")).reverse
      rwa [← List.reverse_prefix, List.reverse_reverse] at hsuffix
    rcases List.prefix_cons_iff.1 (h.trans habove) with rfl | ⟨part, rfl, hpart⟩
    · exact ⟨[], List.nil_prefix, rfl⟩
    · obtain ⟨part', hpart', heq⟩ := exists_prefix_of_filter hpart
      exact ⟨first :: part', List.cons_prefix_cons.2 ⟨rfl, hpart'⟩, heq (enter [] first)⟩

/-- **Directories are only made on the way to the path**, whether all of them can be made or not. -/
theorem makeDirectories (t : Tree) (path : String) :
    AddsDirectories (t.OnWay path) t (t.makeDirectories path).2 := by
  unfold Tree.makeDirectories
  split
  · exact refl _ _
  · split
    · exact refl _ _
    · refine (makeWithin t _ _).mono fun l hl => ?_
      rcases hl with rfl | ⟨part, hpart, rfl⟩
      · exact ⟨_, List.prefix_rfl, rfl⟩
      · obtain ⟨part', hpart', heq⟩ := exists_prefix_of_namesAbove hpart
        exact ⟨part', hpart', heq.symm⟩

end AddsDirectories

/-! ## Closed trees -/

/-- Every item lies in a directory. -/
def Closed (t : Tree) : Prop :=
  ∀ l name, (t.get? (l ++ [name])).isSome → t.get? l = some .directory

lemma Closed.directory (h : t.Closed) {l rest : Location} (hne : rest ≠ [])
    (hsome : (t.get? (l ++ rest)).isSome) : t.get? l = some .directory := by
  induction rest generalizing l with
  | nil => exact absurd rfl hne
  | cons name rest ih =>
    cases rest with
    | nil => exact h l name hsome
    | cons next rest =>
      rw [List.append_cons] at hsome
      have hdir := ih (List.cons_ne_nil _ _) hsome
      exact h l name (by rw [hdir]; rfl)

/-- Without a way up, names lead to a place further below. -/
lemma foldl_enter {path : List String} (hup : ".." ∉ path) (dir : Location) :
    path.foldl enter dir = dir ++ path.filter (· != ".") := by
  induction path generalizing dir with
  | nil => exact (List.append_nil _).symm
  | cons name rest ih =>
    rw [List.mem_cons, not_or] at hup
    rw [List.foldl_cons, ih hup.2]
    have hname : (name == "..") = false := by simpa using Ne.symm hup.1
    by_cases hdot : name = "."
    · simp [enter, hdot]
    · simp [enter, hdot, hname]

/-- If names without a way up lead to a place in some tree, and a closed tree has an item there,
they lead to it in the closed tree too. -/
lemma Closed.locate (h : t.Closed) {dir : Location} {path : List String} (hup : ".." ∉ path)
    (hlocate : t'.locate dir path = .ok loc) (hdir : t'.get? loc ≠ some .directory)
    (hsome : (t.get? loc).isSome) : t.locate dir path = .ok loc := by
  induction path generalizing dir with
  | nil => exact hlocate
  | cons name rest ih =>
    have hloc := locate_eq hlocate
    rw [List.mem_cons, not_or] at hup
    obtain ⟨⟨hname, -⟩, hplace⟩ := locate_cons_eq_ok_iff.1 hlocate
    have hname := And.intro hname (leaves_of_ne t dir (Ne.symm hup.1))
    obtain hlast | ⟨hne, hget, hrest⟩ := hplace
    · exact locate_cons_eq_ok_iff.2 ⟨hname, Or.inl hlast⟩
    · have hbelow : loc = enter dir name ++ rest.filter (· != ".") := by
        rw [hloc, List.foldl_cons, foldl_enter hup.2]
      -- if only dots were left, the place would be the directory that was entered
      have hproper : rest.filter (· != ".") ≠ [] := by
        intro hnil
        rw [hnil, List.append_nil] at hbelow
        exact hdir (hbelow ▸ hget)
      have hget' := h.directory hproper (hbelow ▸ hsome)
      exact locate_cons_eq_ok_iff.2 ⟨hname, Or.inr ⟨hne, hget', ih hup.2 hrest⟩⟩

lemma Closed.find (h : t.Closed) {P : Location → Prop} (hadds : AddsDirectories P t t')
    {path : String} (hup : ".." ∉ names (t.relative path)) (hfind : t'.find path = .ok loc)
    (hdir : t'.get? loc ≠ some .directory) (hsome : (t.get? loc).isSome) :
    t.find path = .ok loc := by
  unfold Tree.find at hfind ⊢
  rw [checkPath_congr hadds.base] at hfind
  split at hfind
  · simp at hfind
  · rw [relative_congr hadds.base] at hfind
    exact h.locate hup hfind hdir hsome

/-! ## Files -/

/-- There is an item at a path that does not stand for a directory exactly if there is one where it
leads to. -/
lemma pathExists_of_find {path : String} (hfind : t.find path = .ok loc)
    (hdir : t.get? loc ≠ some .directory) (hslash : path.toList.getLast? ≠ some '/') :
    t.pathExists path = (t.get? loc).isSome := by
  have hslash' : (path.toList.getLast? == some '/') = false := by simpa using hslash
  simp only [pathExists, item, hfind, hslash']
  cases hget : t.get? loc with
  | none => rfl
  | some item =>
    cases item with
    | directory => exact absurd hget hdir
    | file content => rfl

lemma readText_of_find {path content : String} (hfind : t.find path = .ok loc)
    (hget : t.get? loc = some (.file content.toUTF8))
    (hslash : path.toList.getLast? ≠ some '/') : t.readText path = .ok content := by
  have hslash' : (path.toList.getLast? == some '/') = false := by simpa using hslash
  have hitem : t.item path = .ok (.file content.toUTF8) := by
    simp only [item, hfind, hget, hslash']
    rfl
  simp only [readText, readBytes, hitem, fromUTF8?_toUTF8]

lemma destination_eq_ok_iff {path : String} :
    t.destination path = .ok loc ↔ t.find path = .ok loc ∧ t.get? loc ≠ some .directory ∧
      path.toList.getLast? ≠ some '/' := by
  unfold destination
  cases hfind : t.find path with
  | error e => simp
  | ok loc' =>
    dsimp only
    split
    · rename_i hdir
      refine ⟨nofun, ?_⟩
      rintro ⟨hloc, hfile, -⟩
      exact absurd (Except.ok.inj hloc ▸ hdir) hfile
    · rename_i hfile
      by_cases hslash : path.toList.getLast? = some '/'
      · simp [hslash]
      · rw [if_neg (by simpa using hslash)]
        refine ⟨fun hloc => ⟨hloc, ?_, hslash⟩, And.left⟩
        exact Except.ok.inj hloc ▸ hfile

/-- The file at the location that a path leads to was made or changed, and has the given content
now. -/
structure Written (t : Tree) (path : String) (content : ByteArray) (loc : Location) (t' : Tree) :
    Prop where
  find : t.find path = .ok loc
  notDirectory : t.get? loc ≠ some .directory
  noSlash : path.toList.getLast? ≠ some '/'
  eq : t' = t.put loc (.file content)

/-- What a write that fails leaves: all as it was or, on a full disk, the beginning of the text. -/
def Interrupted (t : Tree) (path content : String) (t' : Tree) : Prop :=
  t' = t ∨ ∃ loc room, t.fault? loc = some (.full room) ∧ room < content.toUTF8.size ∧
    Written t path (content.toUTF8.extract 0 room) loc t'

section Writes

variable {path content : String}

lemma writeText_of_error {cause : FileError} (h : t.destination path = .error cause) :
    t.writeText path content = (.error cause, t) := by
  simp only [writeText, writeBytes, remains, h]

lemma writeText_of_sound (h : t.destination path = .ok loc)
    (hsound : (t.fault? loc).bind (Fault.refusal? content.toUTF8) = none) :
    t.writeText path content = (.ok (), t.put loc (.file content.toUTF8)) := by
  simp only [writeText, writeBytes, h, hsound]

lemma writeText_of_locked (h : t.destination path = .ok loc) (hfault : t.fault? loc = some .locked) :
    t.writeText path content = (.error .permissionDenied, t) := by
  simp only [writeText, writeBytes, remains, h, hfault, Option.bind_some, Fault.refusal?]

lemma writeText_of_full {room : Nat} (h : t.destination path = .ok loc)
    (hfault : t.fault? loc = some (.full room)) (hroom : room < content.toUTF8.size) :
    t.writeText path content =
      (.error .noSpace, t.put loc (.file (content.toUTF8.extract 0 room))) := by
  simp only [writeText, writeBytes, remains, h, hfault, Option.bind_some, Fault.refusal?,
    if_pos hroom]

end Writes

/-- **What a write leaves.** -/
theorem writeText_cases (t : Tree) (path content : String) :
    match t.writeText path content with
    | (.error _, t') => Interrupted t path content t'
    | (.ok _, t') => ∃ loc, Written t path content.toUTF8 loc t' ∧
        (t.fault? loc).bind (Fault.refusal? content.toUTF8) = none := by
  cases hdest : t.destination path with
  | error e =>
    rw [writeText_of_error hdest]
    exact Or.inl rfl
  | ok loc =>
    obtain ⟨hfind, hdir, hslash⟩ := destination_eq_ok_iff.1 hdest
    cases hsound : (t.fault? loc).bind (Fault.refusal? content.toUTF8) with
    | none =>
      rw [writeText_of_sound hdest hsound]
      exact ⟨loc, ⟨hfind, hdir, hslash, rfl⟩, hsound⟩
    | some cause =>
      obtain ⟨fault, hfault, hrefusal⟩ := Option.bind_eq_some_iff.1 hsound
      cases fault with
      | locked =>
        rw [writeText_of_locked hdest hfault]
        exact Or.inl rfl
      | full room =>
        obtain ⟨hroom, -⟩ : room < content.toUTF8.size ∧ .noSpace = cause := by
          simpa [Fault.refusal?] using hrefusal
        rw [writeText_of_full hdest hfault hroom]
        exact Or.inr ⟨loc, room, hfault, hroom, hfind, hdir, hslash, rfl⟩

lemma exists_written {path content : String} {done : Unit}
    (h : t.writeText path content = (.ok done, t')) :
    ∃ loc, Written t path content.toUTF8 loc t' ∧
      (t.fault? loc).bind (Fault.refusal? content.toUTF8) = none := by
  have hcases := writeText_cases t path content
  rwa [h] at hcases

lemma interrupted {path content : String} {cause : FileError}
    (h : t.writeText path content = (.error cause, t')) : Interrupted t path content t' := by
  have hcases := writeText_cases t path content
  rwa [h] at hcases

namespace Written

variable {path : String} {content : ByteArray}

lemma get?_eq (h : Written t path content loc t') (l : Location) :
    t'.get? l = if l = loc then some (.file content) else t.get? l := by
  have hne : loc ≠ [] := by
    rintro rfl
    exact h.notDirectory rfl
  rw [h.eq, get?_put hne]

lemma find_eq (h : Written t path content loc t') : t'.find path = .ok loc := by
  refine find_mono (by rw [h.eq]; rfl) (fun l hl => ?_) h.find
  rw [h.get?_eq, if_neg, hl]
  rintro rfl
  exact h.notDirectory hl

/-- What is written is what is read. -/
theorem readText_eq {text : String} (h : Written t path text.toUTF8 loc t') :
    t'.readText path = .ok text :=
  readText_of_find h.find_eq (by rw [h.get?_eq, if_pos rfl]) h.noSlash

end Written

end Tree

end NetDiagram.Files
