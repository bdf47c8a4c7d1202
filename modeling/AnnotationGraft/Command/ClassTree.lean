import AnnotationGraft.FileSystem.Basic
import AnnotationGraft.FileSystem.Path
import AnnotationGraft.Graft.Batch

/-!
# Class trees

A directory with compiled classes, each in the file that its name tells.  Every class file of the
tree is a donor; recipients are loaded from the tree, and what is written of them is stored in this
or another tree.
-/

namespace AnnotationGraft

/-- A directory with compiled classes. -/
structure ClassTree (m : Type → Type) where
  fileSystem : FileSystem m
  root : String

namespace ClassTree

variable {m : Type → Type} [Monad m]

/-- The path of a class. -/
def pathOf (tree : ClassTree m) (name : ClassName) : String := Path.join tree.root name.filePath

/-- The class file that a walk has come to, by its components below the root.  What the walk could
not look at is passed over.  The root may itself be a class file. -/
def classFileOf? (root : String) : Except FileError Entry → Option (List String)
  | .error _ => none
  | .ok entry =>
    let name := entry.components.getLastD ((Path.components root).getLastD "")
    if entry.kind = .file ∧ Path.isClassFileName name then some entry.components else none

/-- The class files of the tree in the order of their paths. -/
def classFiles (tree : ClassTree m) : m (List (List String)) := do
  let found ← tree.fileSystem.walk tree.root
  return (found.filterMap (classFileOf? tree.root)).mergeSort Path.compareComponents

/-- Reads a class file as a donor. -/
def readDonor (tree : ClassTree m) (file : List String) : ExceptT (List String) m Donor := do
  let path := file.foldl Path.join tree.root
  match ← tree.fileSystem.read path with
  | .ok bytes => return ⟨"/".intercalate file, bytes⟩
  | .error e => throw ["Failed to read " ++ path, e.message]

/-- Reads every class file of the tree as a donor. -/
def donors (tree : ClassTree m) : ExceptT (List String) m (List Donor) := do
  (← tree.classFiles).mapM tree.readDonor

/-- Loads a recipient. -/
def load (tree : ClassTree m) (name : ClassName) : m Loaded := do
  let path := tree.pathOf name
  match ← tree.fileSystem.read path with
  | .ok bytes => return .ok bytes
  | .error e => return .error ["Failed to read " ++ path, e.message]

/-- Loads the recipients of donors, all of them before the first attempt.  As loading only reads,
it could as well be done by each attempt. -/
def recipients (tree : ClassTree m) (settings : Settings) (donors : List Donor) :
    m (ClassName → Loaded) := do
  let names := (donors.filterMap fun d => settings.recipientOfBytes? d.bytes).eraseDups
  let loaded ← names.mapM fun name => do return (name, ← tree.load name)
  return fun name => (loaded.lookup name).getD (.error [])

/-- Stores a class. -/
def store (tree : ClassTree m) (name : ClassName) (bytes : Bytes) :
    m (Except (List String) Unit) := do
  let path := tree.pathOf name
  let directory := Path.parent path
  match ← tree.fileSystem.createDirectories directory with
  | .error e => return .error ["Failed to create " ++ directory, e.message]
  | .ok () =>
    match ← tree.fileSystem.write path bytes with
    | .error e => return .error ["Failed to write " ++ path, e.message]
    | .ok () => return .ok ()

end ClassTree

end AnnotationGraft
