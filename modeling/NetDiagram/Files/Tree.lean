import NetDiagram.Files.Basic
import NetDiagram.Text.Blank

/-!
# A file system as a value

A `Tree` lists the files and directories below a directory by the names on the way to them.  That
directory is the working directory too.  Operations fail as those of a Linux system do: every
directory on the way must exist and be a directory, a name has at most 255 bytes, and `.` and `..`
stand for a directory and the one it lies in.  A place may be locked, and the disk may be full; on a
full disk, a file that cannot be written as a whole is cut short.

Two things are left out.  There are no links, and whatever exists can be read.  Nor is anything
known of what lies outside of the directory: a path that leads there, or through there, fails.
-/

namespace NetDiagram.Files

/-- A file with its content, or a directory. -/
inductive Item where
  | file (content : ByteArray)
  | directory

/-- Whether the item is a directory. -/
def Item.isDirectory : Item → Bool
  | directory => true
  | file _ => false

/-- The names on the way to an item. -/
abbrev Location :=
  List String

/-- What keeps a place from being written to. -/
inductive Fault where
  /-- Nothing may be made or changed there. -/
  | locked
  /-- The disk has room for so many bytes. -/
  | full (room : Nat)
deriving DecidableEq, Repr

/-- Why the bytes cannot be written there, if they cannot. -/
def Fault.refusal? (content : ByteArray) : Fault → Option FileError
  | locked => some .permissionDenied
  | full room => if room < content.size then some .noSpace else none

/-- Why a directory cannot be made there. -/
def Fault.cause : Fault → FileError
  | locked => .permissionDenied
  | full _ => .noSpace

/-- The files and directories below a directory, whose own path is `base`.  If that path is empty,
the directory is the root, and nothing lies outside. -/
structure Tree where
  base : String := ""
  items : List (Location × Item) := []
  /-- What is wrong with a place, be there an item or not. -/
  fault? : Location → Option Fault := fun _ => none

namespace Tree

/-- The item at a location; the empty one is the directory itself. -/
def get? (t : Tree) (loc : Location) : Option Item :=
  if loc.isEmpty then some .directory else t.items.lookup loc

/-- Puts an item at a location. -/
def put (t : Tree) (loc : Location) (item : Item) : Tree :=
  { t with items := (loc, item) :: t.items.filter (·.1 != loc) }

/-! ## Paths -/

/-- Whether the path is that of an item below the directory of the tree, written out from the
root. -/
def isBelow (t : Tree) (path : String) : Bool :=
  (joinPath t.base "").toList.isPrefixOf path.toList

/-- The part of a path below the directory of the tree, which it is taken from unless it is written
out from the root. -/
def relative (t : Tree) (path : String) : String :=
  if t.isBelow path then String.ofList (path.toList.drop (joinPath t.base "").length)
  else if path == t.base then ""
  else path

/-- Whether the path is written out from the root and leads to a place outside of the tree. -/
def isOutside (t : Tree) (path : String) : Bool :=
  path.toList.head? == some '/' && !t.isBelow path && path != t.base

/-- The names of a path. -/
def names (path : String) : List String :=
  (Text.splitAt '/' path).filter (· != "")

/-- Where a name leads from a directory. -/
def enter (dir : Location) (name : String) : Location :=
  if name == "." then dir
  else if name == ".." then dir.dropLast
  else dir ++ [name]

/-- Whether the name leads out of the tree.  The root lies in itself. -/
def leaves (t : Tree) (dir : Location) (name : String) : Bool :=
  name == ".." && dir.isEmpty && t.base != ""

/-- Why a path that leads out of the tree fails. -/
def outside : FileError :=
  .other "The path leads out of the tree"

/-- The location that names lead to.  All but the last must lead to directories; there need be
nothing at the last. -/
def locate (t : Tree) (dir : Location) : List String → Except FileError Location
  | [] => .ok dir
  | name :: rest =>
    if 255 < name.utf8ByteSize then .error .nameTooLong
    else if t.leaves dir name then .error outside
    else if rest.isEmpty then .ok (enter dir name)
    else
      match t.get? (enter dir name) with
      | none => .error .notFound
      | some (.file _) => .error .notADirectory
      | some .directory => t.locate (enter dir name) rest

/-- Checks what holds of all paths that lead somewhere: they are not empty, have no NUL, have less
than 4096 bytes and start in the tree. -/
def checkPath (t : Tree) (path : String) : Except FileError Unit :=
  if path.toList.contains '\x00' then .error .strayNul
  else if path == "" then .error .notFound
  else if 4096 ≤ path.utf8ByteSize then .error .nameTooLong
  else if t.isOutside path then .error outside
  else .ok ()

/-- The location of a path. -/
def find (t : Tree) (path : String) : Except FileError Location :=
  match t.checkPath path with
  | .error e => .error e
  | .ok _ => t.locate [] (names (t.relative path))

/-- The item at a path.  A path that ends with a slash leads to directories only. -/
def item (t : Tree) (path : String) : Except FileError Item :=
  match t.find path with
  | .error e => .error e
  | .ok loc =>
    match t.get? loc with
    | none => .error .notFound
    | some .directory => .ok .directory
    | some (.file content) =>
      if path.toList.getLast? == some '/' then .error .notADirectory else .ok (.file content)

/-! ## Operations -/

/-- Whether there is an item at a path. -/
def pathExists (t : Tree) (path : String) : Bool :=
  match t.item path with
  | .ok _ => true
  | .error _ => false

/-- The content of a file. -/
def readBytes (t : Tree) (path : String) : Except FileError ByteArray :=
  match t.item path with
  | .error e => .error e
  | .ok .directory => .error .isADirectory
  | .ok (.file content) => .ok content

/-- The content of a file as a text. -/
def readText (t : Tree) (path : String) : Except FileError String :=
  match t.readBytes path with
  | .error e => .error e
  | .ok content =>
    match String.fromUTF8? content with
    | some s => .ok s
    | none => .error .notText

/-- Where a path leads to, if there can be a file. -/
def destination (t : Tree) (path : String) : Except FileError Location :=
  match t.find path with
  | .error e => .error e
  | .ok loc =>
    match t.get? loc with
    | some .directory => .error .isADirectory
    | _ => if path.toList.getLast? == some '/' then .error .isADirectory else .ok loc

/-- Makes a file or replaces its content. -/
def writeBytes (t : Tree) (path : String) (content : ByteArray) : Except FileError Tree :=
  match t.destination path with
  | .error e => .error e
  | .ok loc =>
    match (t.fault? loc).bind (Fault.refusal? content) with
    | some e => .error e
    | none => .ok (t.put loc (.file content))

/-- What is left when bytes cannot be written: on a full disk, a file with those for which there is
room. -/
def remains (t : Tree) (path : String) (content : ByteArray) : Tree :=
  match t.destination path with
  | .error _ => t
  | .ok loc =>
    match t.fault? loc with
    | some (.full room) => t.put loc (.file (content.extract 0 room))
    | _ => t

/-- Makes a file or replaces its content by a text. -/
def writeText (t : Tree) (path content : String) : Except FileError Unit × Tree :=
  match t.writeBytes path content.toUTF8 with
  | .ok t' => (.ok (), t')
  | .error e => (.error e, t.remains path content.toUTF8)

/-- Makes a directory. -/
def makeDirectory (t : Tree) (path : List String) : Except FileError Tree :=
  match t.locate [] path with
  | .error e => .error e
  | .ok loc =>
    match t.get? loc, t.fault? loc with
    | some _, _ => .error .alreadyExists
    | none, some fault => .error fault.cause
    | none, none => .ok (t.put loc .directory)

/-- Whether names lead to a directory. -/
def isDirectory (t : Tree) (path : List String) : Bool :=
  match t.locate [] path with
  | .error _ => false
  | .ok loc => ((t.get? loc).map Item.isDirectory).getD false

/-- Makes a directory that may be there already. -/
def ensureDirectory (t : Tree) (path : List String) : Except FileError Tree :=
  match t.makeDirectory path with
  | .ok t' => .ok t'
  | .error e => if t.isDirectory path then .ok t else .error e

/-- Makes a directory and those that it lies in, where they are missing.  The names of the one
that it lies in are given from the last to the first.  Those that were made before a failure
stay. -/
def makeWithin (t : Tree) (path : List String) : List String → Except FileError Unit × Tree
  | [] =>
    match t.ensureDirectory path with
    | .ok t' => (.ok (), t')
    | .error e => (.error e, t)
  | name :: above =>
    match t.ensureDirectory path with
    | .ok t' => (.ok (), t')
    | .error .notFound =>
      match t.makeWithin (name :: above).reverse above with
      | (.error e, t') => (.error e, t')
      | (.ok _, t') =>
        match t'.ensureDirectory path with
        | .ok t'' => (.ok (), t'')
        | .error e => (.error e, t')
    | .error e => (.error e, t)

/-- The names on the way to what a list of names leads to, from the last to the first.  A dot
counts only at the start. -/
def namesAbove : List String → List String
  | [] => []
  | first :: rest => (first :: rest.filter (· != ".")).reverse.drop 1

/-- Makes a directory and those that it lies in, where they are missing.  The empty path needs
none. -/
def makeDirectories (t : Tree) (path : String) : Except FileError Unit × Tree :=
  if path == "" then (.ok (), t)
  else
    match t.checkPath path with
    | .error e => (.error e, t)
    | .ok _ =>
      let path := names (t.relative path)
      t.makeWithin path (namesAbove path)

/-- The paths of all files and directories, those of directories with a slash at the end, in
order. -/
def listing (t : Tree) : List String :=
  (t.items.map fun (loc, item) =>
    "/".intercalate loc ++ (if item.isDirectory then "/" else "")).mergeSort fun a b => !(b < a)

end Tree

/-- A tree that is passed along is a file system. -/
instance : FileStore (StateM Tree) where
  pathExists path := fun t => (t.pathExists path, t)
  readText path := fun t => (t.readText path, t)
  makeDirectories path := fun t => t.makeDirectories path
  writeText path content := fun t => t.writeText path content

instance : LawfulFileStore Tree where
  run_pathExists _ _ := rfl

end NetDiagram.Files
