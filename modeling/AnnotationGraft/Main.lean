import AnnotationGraft.Command.Run

/-!
# The command

Runs the command on the files of the computer, prints its report or its failure, and ends with its
exit code.
-/

namespace AnnotationGraft.Computer

/-- The number of a system error.  Some operations give it with a minus. -/
def errorNumber (code : UInt32) : Nat :=
  if code.toNat < 0x80000000 then code.toNat else 0x100000000 - code.toNat

/-- The error of a file operation. -/
def fileError (error : IO.Error) : FileError :=
  match error with
  | .alreadyExists _ code details | .invalidArgument _ code details
  | .permissionDenied _ code details | .resourceExhausted _ code details
  | .inappropriateType _ code details | .noSuchThing _ code details
  | .noFileOrDirectory _ code details | .interrupted _ code details
  | .otherError code details | .resourceBusy code details | .resourceVanished code details
  | .unsupportedOperation code details | .hardwareFault code details
  | .unsatisfiedConstraints code details | .illegalOperation code details
  | .protocolError code details | .timeExpired code details =>
    match errorNumber code with
    | 2 => .notFound
    | 13 => .permissionDenied
    | 17 => .alreadyExists
    | 20 => .notDirectory
    | 21 => .isDirectory
    | 36 => .nameTooLong
    | number => .other (details.capitalize ++ " (os error " ++ toString number ++ ")")
  | .unexpectedEof => .other "unexpected end of file"
  | .userError message => .other message

/-- Does a file operation on a path. -/
def attempt {α : Type} (path : String) (operation : IO α) : IO (Except FileError α) := do
  if path.contains (Char.ofNat 0) then return .error .zeroInPath
  try return .ok (← operation)
  catch e => return .error (fileError e)

/-- The canonical form of a path.  Where there is none, opening the path tells why. -/
def canonical (path : String) : IO (Except FileError String) :=
  attempt path do
    try return (← IO.FS.realPath path).toString
    catch e =>
      let _ ← IO.FS.Handle.mk path .read
      throw e

/-- Whether a path leads to a directory. -/
def isDirectory (path : String) : IO Bool := do
  try return (← (← IO.FS.realPath path).metadata).type == .dir
  catch _ => return false

mutual

/-- What a walk comes to in a directory, whose components below the start are `above`. -/
partial def walkInto (above : List String) (path : String) :
    IO (List (Except FileError Entry)) := do
  match ← attempt path do (← IO.FS.realPath path).readDir with
  | .error e => return [.error e]
  | .ok entries => return (← entries.toList.mapM (walkEntry above)).flatten

/-- What a walk comes to at and below a directory entry; links are not followed. -/
partial def walkEntry (above : List String) (entry : IO.FS.DirEntry) :
    IO (List (Except FileError Entry)) := do
  let components := above ++ [entry.fileName]
  match ← attempt entry.path.toString entry.path.symlinkMetadata with
  | .error e => return [.error e]
  | .ok metadata =>
    match metadata.type with
    | .file => return [.ok ⟨components, .file⟩]
    | .dir => return .ok ⟨components, .directory⟩ :: (← walkInto components entry.path.toString)
    | _ => return [.ok ⟨components, .other⟩]

end

/-- What a walk comes to that begins at a path. -/
def walk (path : String) : IO (List (Except FileError Entry)) := do
  match ← attempt path do (← IO.FS.realPath path).metadata with
  | .error e => return [.error e]
  | .ok metadata =>
    match metadata.type with
    | .file => return [.ok ⟨[], .file⟩]
    | .dir => return .ok ⟨[], .directory⟩ :: (← walkInto [] path)
    | _ => return [.ok ⟨[], .other⟩]

/-- The files of the computer. -/
def fileSystem : FileSystem IO where
  canonical := canonical
  read path := attempt path do return (← IO.FS.readBinFile path).toList
  walk := walk
  isDirectory := isDirectory
  createDirectory path := attempt path (IO.FS.createDir path)
  write path content := attempt path (IO.FS.writeBinFile path ⟨content.toArray⟩)

end AnnotationGraft.Computer

/-- Runs the command with the given arguments. -/
def main (arguments : List String) : IO UInt32 := do
  let ending ← AnnotationGraft.runCommand AnnotationGraft.Computer.fileSystem arguments
  IO.print ending.output
  match ending with
  | .misused e => IO.eprintln ("error: " ++ e.message)
  | .failed causes => IO.eprintln (AnnotationGraft.failureText causes)
  | .reported _ _ => pure ()
  return ending.code.toUInt32
