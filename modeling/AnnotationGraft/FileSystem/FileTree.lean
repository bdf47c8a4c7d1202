import AnnotationGraft.FileSystem.Basic

/-!
# File trees

A file tree in memory, with a working directory in it.  A path leads through it from the top if it
begins with a slash, and from the working directory otherwise; on the way everything has to be a
directory.  A file that may not be opened for reading can be written, and a path may lead through a
directory that may not, but such a file is not read and such a directory not listed.
-/

namespace AnnotationGraft

/-- A file with its content, or a directory with what is in it. -/
inductive FileNode where
  | file (content : Bytes)
  | directory (entries : List (String × FileNode))

namespace FileNode

/-- What a directory holds under a name. -/
def child? : FileNode → String → Option FileNode
  | directory entries, name => entries.lookup name
  | file _, _ => none

/-- What stands at a place below a node. -/
def at? : FileNode → List String → Option FileNode
  | node, [] => some node
  | node, name :: place => (node.child? name).bind (·.at? place)

/-- The entries of a directory with another node under a name. -/
def setEntry (name : String) (node : FileNode) :
    List (String × FileNode) → List (String × FileNode)
  | [] => [(name, node)]
  | entry :: entries =>
    if entry.1 = name then (name, node) :: entries else entry :: setEntry name node entries

/-- The node with another one at a place below it; directories that are missing on the way are
added.  Nothing can be put below a file. -/
def put : FileNode → List String → FileNode → FileNode
  | _, [], new => new
  | file content, _ :: _, _ => file content
  | directory entries, name :: place, new =>
    directory (setEntry name (((entries.lookup name).getD (directory [])).put place new) entries)

mutual

/-- The files at and below a node, with their places after those already on the way, the innermost
of which comes first. -/
def filesFrom (above : List String) (node : FileNode) : List (List String × Bytes) :=
  match node with
  | file content => [(above.reverse, content)]
  | directory entries => filesOfEntries above entries
termination_by structural node

/-- The files at and below the entries of a directory. -/
def filesOfEntries (above : List String) (entries : List (String × FileNode)) :
    List (List String × Bytes) :=
  match entries with
  | [] => []
  | (name, node) :: entries => filesFrom (name :: above) node ++ filesOfEntries above entries
termination_by structural entries

end

/-- The files at and below a node, by their places below it. -/
def files (node : FileNode) : List (List String × Bytes) := node.filesFrom []

mutual

/-- What a walk comes to at and below a node, whose place is given with the innermost name first.
It does not come into directories for whose places there is a refusal. -/
def walkFrom (refusal : List String → Option FileError) (above : List String) (node : FileNode) :
    List (Except FileError Entry) :=
  match node with
  | file _ => [.ok ⟨above.reverse, .file⟩]
  | directory entries =>
    .ok ⟨above.reverse, .directory⟩
      :: match refusal above.reverse with
        | some e => [.error e]
        | none => walkEntries refusal above entries
termination_by structural node

/-- What a walk comes to at and below the entries of a directory. -/
def walkEntries (refusal : List String → Option FileError) (above : List String)
    (entries : List (String × FileNode)) : List (Except FileError Entry) :=
  match entries with
  | [] => []
  | (name, node) :: entries =>
    walkFrom refusal (name :: above) node ++ walkEntries refusal above entries
termination_by structural entries

end

/-- What a walk comes to at and below a node, by the places below it. -/
def walk (refusal : List String → Option FileError) (node : FileNode) :
    List (Except FileError Entry) := node.walkFrom refusal []

end FileNode

/-- A tree of files, and the place of its working directory. -/
structure FileTree where
  top : FileNode
  working : List String
  /-- The places of the files and directories that may not be opened for reading. -/
  denied : List (List String) := []

/-- Where a path has led. -/
structure Whereabouts where
  /-- The names on the way, the innermost first. -/
  names : List String
  /-- The directories that hold them. -/
  parents : List FileNode
  /-- What is there; only the last name may lead to nothing. -/
  node : Option FileNode

namespace Whereabouts

/-- The longest name that a file may have, in bytes. -/
def maxNameSize : Nat := 255

/-- Whether a component stands for the directory that it follows. -/
def isHere (component : String) : Bool := component == "" || component == "."

/-- Follows one component more.  Above the top there is the top. -/
def step (whereabouts : Whereabouts) (component : String) : Except FileError Whereabouts :=
  match whereabouts.node with
  | none => .error .notFound
  | some (.file _) => .error .notDirectory
  | some (.directory entries) =>
    if isHere component then .ok whereabouts
    else if component = ".." then
      match whereabouts.names, whereabouts.parents with
      | _ :: names, parent :: parents => .ok ⟨names, parents, some parent⟩
      | _, _ => .ok whereabouts
    else if maxNameSize < component.utf8ByteSize then .error .nameTooLong
    else
      .ok ⟨component :: whereabouts.names, .directory entries :: whereabouts.parents,
        entries.lookup component⟩

/-- The names from the top on. -/
def place (whereabouts : Whereabouts) : List String := whereabouts.names.reverse

end Whereabouts

namespace FileTree

/-- Where a path leads, whatever its length. -/
def follow (tree : FileTree) (path : String) : Except FileError Whereabouts := do
  if path.contains (Char.ofNat 0) then throw .zeroInPath
  if path = "" then throw .notFound
  let top : Whereabouts := ⟨[], [], some tree.top⟩
  let start ← if path.startsWith "/" then pure top else tree.working.foldlM Whereabouts.step top
  (Path.components path).foldlM Whereabouts.step start

/-- The longest path that a file operation takes, in bytes. -/
def maxPathSize : Nat := 4095

/-- Where a path leads, for a file operation. -/
def locate (tree : FileTree) (path : String) : Except FileError Whereabouts :=
  if maxPathSize < path.utf8ByteSize && !path.contains (Char.ofNat 0) then .error .nameTooLong
  else tree.follow path

/-- The absolute path of an existing file or directory. -/
def canonical (tree : FileTree) (path : String) : Except FileError String := do
  let found ← tree.follow path
  match found.node with
  | none => throw .notFound
  | some _ => return "/" ++ "/".intercalate found.place

/-- The content of a file. -/
def read (tree : FileTree) (path : String) : Except FileError Bytes := do
  let found ← tree.locate path
  match found.node with
  | none => throw .notFound
  | some node =>
    if found.place ∈ tree.denied then throw .permissionDenied
    match node with
    | .directory _ => throw .isDirectory
    | .file content => return content

/-- Whether a path leads to a directory. -/
def isDirectory (tree : FileTree) (path : String) : Bool :=
  match tree.locate path with
  | .ok ⟨_, _, some (.directory _)⟩ => true
  | _ => false

/-- Why the directory at a place cannot be listed under a path. -/
def refusal (tree : FileTree) (path : String) (place : List String) : Option FileError :=
  if maxPathSize < path.utf8ByteSize then some .nameTooLong
  else if place ∈ tree.denied then some .permissionDenied
  else none

/-- What a walk comes to that begins at a path. -/
def walk (tree : FileTree) (path : String) : List (Except FileError Entry) :=
  match tree.locate path with
  | .error e => [.error e]
  | .ok found =>
    match found.node with
    | none => [.error .notFound]
    | some node =>
      node.walk fun below => tree.refusal (below.foldl Path.join path) (found.place ++ below)

/-- The tree with a node at a place. -/
def put (tree : FileTree) (place : List String) (node : FileNode) : FileTree :=
  { tree with top := tree.top.put place node }

/-- Creates a directory in one that is there.  Slashes at the end of its path mean nothing. -/
def createDirectory (tree : FileTree) (path : String) : Except FileError Unit × FileTree :=
  match tree.locate (Path.dropSlashes path) with
  | .error e => (.error e, tree)
  | .ok ⟨_, _, some _⟩ => (.error .alreadyExists, tree)
  | .ok found => (.ok (), tree.put found.place (.directory []))

/-- Gives a file its content. -/
def write (tree : FileTree) (path : String) (content : Bytes) :
    Except FileError Unit × FileTree :=
  match tree.locate path with
  | .error e => (.error e, tree)
  | .ok ⟨_, _, some (.directory _)⟩ => (.error .isDirectory, tree)
  | .ok found => (.ok (), tree.put found.place (.file content))

/-- The operations on a file tree. -/
def fileSystem : FileSystem (StateM FileTree) where
  canonical path := fun tree => (tree.canonical path, tree)
  read path := fun tree => (tree.read path, tree)
  walk path := fun tree => (tree.walk path, tree)
  isDirectory path := fun tree => (tree.isDirectory path, tree)
  createDirectory path := fun tree => tree.createDirectory path
  write path content := fun tree => tree.write path content

/-- The tree with the given files below its working directory, and nothing else. -/
def ofFiles (working : List String) (files : List (String × Bytes)) : FileTree :=
  files.foldl
    (fun tree file => tree.put (working ++ Path.components file.1) (.file file.2))
    { top := (FileNode.directory []).put working (.directory []), working }

/-- The files below the working directory. -/
def files (tree : FileTree) : List (List String × Bytes) :=
  ((tree.top.at? tree.working).map FileNode.files).getD []

end FileTree

end AnnotationGraft
