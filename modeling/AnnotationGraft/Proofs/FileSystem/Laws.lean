import AnnotationGraft.FileSystem.Basic
import AnnotationGraft.Proofs.FileSystem.Computations

/-!
# The laws of file systems

The command runs on any file system.  What it relies on is little, and `FileSystem.IsLawful` names
it: looking and reading change nothing, what is read is the content of the file that the path leads
to, creating a directory makes no file another one, and a write that succeeds gives its file the new
content and leaves every other file alone.

Files are told apart by their places.  A `FileView` says which place a path leads to and what is in
the file there.  Several paths may lead to one place, as they do where there are links, and a path
may lead nowhere.  The laws do not say which operations succeed, nor what a walk comes to.
-/

namespace AnnotationGraft

/-- The files of a file system with states in `σ`, each at a place in `π`. -/
structure FileView (σ π : Type) where
  /-- Where a path leads; a file need not be there. -/
  placeOf? (state : σ) (path : String) : Option π
  /-- The content of the file at a place, if there is one. -/
  contentAt? (state : σ) (place : π) : Option Bytes

variable {σ π : Type}

namespace FileView

variable (view : FileView σ π)

/-- The paths that lead somewhere lead there afterwards. -/
def KeepsPaths (before after : σ) : Prop :=
  ∀ path place, view.placeOf? before path = some place → view.placeOf? after path = some place

/-- No file is another one afterwards. -/
structure KeepsFiles (before after : σ) : Prop where
  paths : view.KeepsPaths before after
  contentAt? : ∀ place, view.contentAt? after place = view.contentAt? before place

/-- A path leads to a file with the content, and no other file is another one. -/
structure Writes (before : σ) (path : String) (content : Bytes) (after : σ) : Prop where
  paths : view.KeepsPaths before after
  written : ∃ place, view.placeOf? after path = some place
    ∧ view.contentAt? after place = some content
    ∧ ∀ other, other ≠ place → view.contentAt? after other = view.contentAt? before other

variable {view} {before between after : σ}

namespace KeepsPaths

theorem refl (state : σ) : view.KeepsPaths state state := fun _ _ h => h

theorem trans (h : view.KeepsPaths before between) (h' : view.KeepsPaths between after) :
    view.KeepsPaths before after :=
  fun path place hplace => h' path place (h path place hplace)

end KeepsPaths

namespace KeepsFiles

theorem refl (state : σ) : view.KeepsFiles state state := ⟨.refl state, fun _ => rfl⟩

theorem trans (h : view.KeepsFiles before between) (h' : view.KeepsFiles between after) :
    view.KeepsFiles before after :=
  ⟨h.paths.trans h'.paths, fun place => (h'.contentAt? place).trans (h.contentAt? place)⟩

/-- A file may as well have been written before no file became another one. -/
theorem writes {path : String} {content : Bytes} (h : view.KeepsFiles before between)
    (hwrites : view.Writes between path content after) :
    view.Writes before path content after := by
  obtain ⟨place, hplace, hcontent, hothers⟩ := hwrites.written
  refine ⟨h.paths.trans hwrites.paths, place, hplace, hcontent, fun other hother => ?_⟩
  rw [hothers other hother, h.contentAt?]

end KeepsFiles

end FileView

namespace FileSystem

/-- What is relied on of a file system whose files are viewed as given. -/
structure IsLawful (fileSystem : FileSystem (StateM σ)) (view : FileView σ π) : Prop where
  canonical : ∀ path, OnlyReads (fileSystem.canonical path)
  isDirectory : ∀ path, OnlyReads (fileSystem.isDirectory path)
  walk : ∀ path, OnlyReads (fileSystem.walk path)
  read : ∀ path, OnlyReads (fileSystem.read path)
  /-- What is read is in the file that the path leads to. -/
  content_of_read : ∀ path state content, ((fileSystem.read path).run state).1 = .ok content →
    ∃ place, view.placeOf? state path = some place ∧ view.contentAt? state place = some content
  /-- Whether or not a directory is created, no file is another one. -/
  createDirectory : ∀ path, Moves view.KeepsFiles (fileSystem.createDirectory path)
  write : ∀ path content before after,
    (fileSystem.write path content).run before = (.ok (), after) →
    view.Writes before path content after

namespace IsLawful

variable {fileSystem : FileSystem (StateM σ)} {view : FileView σ π}
  (laws : fileSystem.IsLawful view)

include laws

theorem keepsFiles_ensureDirectory (path : String) :
    Moves view.KeepsFiles (fileSystem.ensureDirectory path) := by
  refine Moves.bind .trans (laws.createDirectory path) fun result => ?_
  cases result with
  | ok u => exact moves_pure .refl _
  | error e =>
    refine Moves.bind .trans ((laws.isDirectory path).moves .refl) fun found => ?_
    cases found <;> exact moves_pure .refl _

theorem keepsFiles_createFirst (paths : List String) :
    Moves view.KeepsFiles (fileSystem.createFirst paths) := by
  induction paths with
  | nil => exact moves_pure .refl _
  | cons path above ih =>
    refine Moves.bind .trans (laws.keepsFiles_ensureDirectory path) fun result => ?_
    split
    · refine Moves.bind .trans ih fun result => ?_
      cases result with
      | ok u => exact laws.keepsFiles_ensureDirectory path
      | error e => exact moves_pure .refl _
    · exact moves_pure .refl _

theorem keepsFiles_createDirectories (path : String) :
    Moves view.KeepsFiles (fileSystem.createDirectories path) :=
  laws.keepsFiles_createFirst _

end IsLawful

end FileSystem

end AnnotationGraft
