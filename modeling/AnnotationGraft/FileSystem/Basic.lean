import AnnotationGraft.Bytes.BigEndian
import AnnotationGraft.FileSystem.Path

/-!
# File systems

What the command needs of a file system, as operations in an arbitrary monad: the command runs on
the files of a computer as it does on a file tree in memory.
-/

namespace AnnotationGraft

/-- Why an operation on a file fails. -/
inductive FileError where
  | notFound
  | notDirectory
  | isDirectory
  | alreadyExists
  | nameTooLong
  | permissionDenied
  /-- The path holds U+0000, which no path may. -/
  | zeroInPath
  | other (message : String)
  deriving DecidableEq, Repr

/-- The error in words. -/
def FileError.message : FileError → String
  | notFound => "No such file or directory (os error 2)"
  | notDirectory => "Not a directory (os error 20)"
  | isDirectory => "Is a directory (os error 21)"
  | alreadyExists => "File exists (os error 17)"
  | nameTooLong => "File name too long (os error 36)"
  | permissionDenied => "Permission denied (os error 13)"
  | zeroInPath => "file name contained an unexpected NUL byte"
  | other message => message

/-- What stands at a path. -/
inductive EntryKind where
  | file
  | directory
  /-- A link, which a walk does not follow, or something else. -/
  | other
  deriving DecidableEq, Repr

/-- Something that a walk through directories comes to. -/
structure Entry where
  /-- The components of its path below the one where the walk begins. -/
  components : List String
  kind : EntryKind
  deriving DecidableEq, Repr

/-- The operations of a file system. -/
structure FileSystem (m : Type → Type) where
  /-- The absolute path of an existing file or directory. -/
  canonical (path : String) : m (Except FileError String)
  /-- The content of a file. -/
  read (path : String) : m (Except FileError Bytes)
  /-- What a walk comes to that begins at a path, which it comes to first.  An error stands for what
  cannot be looked at, or into; the walk goes on without it. -/
  walk (path : String) : m (List (Except FileError Entry))
  /-- Whether a path leads to a directory. -/
  isDirectory (path : String) : m Bool
  /-- Creates a directory in one that is there. -/
  createDirectory (path : String) : m (Except FileError Unit)
  /-- Gives a file its content, and creates it if it is missing. -/
  write (path : String) (content : Bytes) : m (Except FileError Unit)

namespace FileSystem

variable {m : Type → Type} [Monad m]

/-- Creates a directory, unless it is there. -/
def ensureDirectory (fileSystem : FileSystem m) (path : String) : m (Except FileError Unit) := do
  match ← fileSystem.createDirectory path with
  | .ok () => return .ok ()
  | .error e => if ← fileSystem.isDirectory path then return .ok () else return .error e

/-- Creates the first of the given directories.  Where the one it is in is missing, the others are
created before it. -/
def createFirst (fileSystem : FileSystem m) : List String → m (Except FileError Unit)
  | [] => return .ok ()
  | path :: above => do
    match ← fileSystem.ensureDirectory path with
    | .error .notFound =>
      match ← fileSystem.createFirst above with
      | .ok () => fileSystem.ensureDirectory path
      | .error e => return .error e
    | result => return result

/-- Creates a directory, and those that it is in, where they are missing. -/
def createDirectories (fileSystem : FileSystem m) (path : String) : m (Except FileError Unit) :=
  fileSystem.createFirst (Path.ancestors path)

end FileSystem

end AnnotationGraft
