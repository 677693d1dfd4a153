/-!
# Files

What the library asks of a file system, whatever it is: `FileStore` lists the operations, and
`FileError` the ways in which they fail.  Paths are texts in which slashes divide the names.
-/

namespace NetDiagram.Files

/-- Why an operation on files fails. -/
inductive FileError where
  | notFound
  | alreadyExists
  | notADirectory
  | isADirectory
  | nameTooLong
  | permissionDenied
  | noSpace
  /-- The path holds a NUL. -/
  | strayNul
  /-- The content of a file is not UTF-8. -/
  | notText
  /-- Any other reason, in words. -/
  | other (message : String)
deriving DecidableEq, Repr

/-- The reason in words. -/
def FileError.message : FileError → String
  | notFound => "No such file or directory (os error 2)"
  | alreadyExists => "File exists (os error 17)"
  | notADirectory => "Not a directory (os error 20)"
  | isADirectory => "Is a directory (os error 21)"
  | nameTooLong => "File name too long (os error 36)"
  | permissionDenied => "Permission denied (os error 13)"
  | noSpace => "No space left on device (os error 28)"
  | strayNul => "file name contained an unexpected NUL byte"
  | notText => "stream did not contain valid UTF-8"
  | other message => message

/-- A file system. -/
class FileStore (m : Type → Type) where
  /-- Whether there is a file or a directory at a path. -/
  pathExists : String → m Bool
  /-- The content of a file. -/
  readText : String → m (Except FileError String)
  /-- Makes a directory and those that it lies in, where they are missing. -/
  makeDirectories : String → m (Except FileError Unit)
  /-- Makes a file or replaces its content.  Where that fails, a part may have been written. -/
  writeText : String → String → m (Except FileError Unit)

/-- A file system whose state is a value.  To look whether a path exists changes nothing; any other
operation may do anything. -/
class LawfulFileStore (σ : Type) [FileStore (StateM σ)] : Prop where
  run_pathExists : ∀ (path : String) (s : σ),
    ((FileStore.pathExists path : StateM σ Bool).run s).2 = s

/-- The path of a name inside a directory. -/
def joinPath (dir name : String) : String :=
  if dir == "" then name
  else if dir.toList.getLast? == some '/' then dir ++ name
  else dir ++ "/" ++ name

end NetDiagram.Files
