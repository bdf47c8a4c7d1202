import AnnotationGraft.Proofs.FileSystem.Laws
import AnnotationGraft.Proofs.FileSystem.Places

/-!
# File trees are lawful

Creating a directory in a file tree adds one or changes nothing (`FileTree.AddsDirectories`), and
writing changes what stands at the place of its path, or nothing (`FileTree.write_cases`).  So the
operations on file trees have the laws of file systems: `FileTree.isLawful`.  Two classes below one
directory never have one file (`FileTree.eq_of_placeOf?_join`).
-/

namespace AnnotationGraft

namespace FileTree

variable {tree before after : FileTree} {path : String} {found : Whereabouts} {content : Bytes}

/-! ## Finding and reading -/

theorem follow_of_locate (h : tree.locate path = .ok found) : tree.follow path = .ok found := by
  unfold locate at h
  split at h
  · cases h
  · exact h

theorem place_of_locate (h : tree.locate path = .ok found) :
    found.place = tree.placeOf path := (isIn_of_follow (follow_of_locate h)).2

theorem KeepsDirectories.exists_locate (h : KeepsDirectories before after)
    (hfound : before.locate path = .ok found) : ∃ found', after.locate path = .ok found' := by
  unfold locate at hfound ⊢
  split at hfound
  · cases hfound
  · next hshort =>
    rw [if_neg hshort]
    exact h.exists_follow hfound

/-- Where the working directory is the top, a path leads where its steps lead from the top. -/
theorem locate_of_steps {tree : FileTree} {path : String} {found : Whereabouts}
    (hworking : tree.working = [])
    (hpath : path.utf8ByteSize ≤ maxPathSize ∧ Char.ofNat 0 ∉ path.toList ∧ path ≠ "")
    (hfound : (Path.components path).foldlM Whereabouts.step ⟨[], [], some tree.top⟩
      = .ok found) :
    tree.locate path = .ok found := by
  obtain ⟨hshort, hzero, hempty⟩ := hpath
  have hcontains : path.contains (Char.ofNat 0) = false := by
    rw [String.contains_char_eq]
    exact decide_eq_false hzero
  have hstart : (if path.startsWith "/" then pure ⟨[], [], some tree.top⟩
      else tree.working.foldlM Whereabouts.step ⟨[], [], some tree.top⟩)
      = (.ok ⟨[], [], some tree.top⟩ : Except FileError Whereabouts) := by
    rw [hworking]
    split <;> rfl
  rw [locate, if_neg (by simp [Nat.not_lt.2 hshort])]
  exact follow_eq_ok_iff.2 ⟨hcontains, hempty, _, hstart, hfound⟩

section Top

variable {entries : List (String × FileNode)} (hworking : tree.working = [])
  (htop : tree.top = .directory entries)

include hworking htop

theorem locate_top : tree.locate "/" = .ok ⟨[], [], some tree.top⟩ :=
  locate_of_steps hworking (by decide) (by rw [htop]; rfl)

theorem locate_here : tree.locate "." = .ok ⟨[], [], some tree.top⟩ :=
  locate_of_steps hworking (by decide) (by rw [htop]; rfl)

theorem canonical_here : tree.canonical "." = .ok "/" := by
  rw [canonical, follow_of_locate (locate_here hworking htop)]
  rfl

/-- The top is there, so that nothing needs to be created. -/
theorem run_createDirectories_top :
    (fileSystem.createDirectories "/").run tree = (.ok (), tree) := by
  have hslash : Path.dropSlashes "/" = "/" := by decide
  have habove : Path.ancestors "/" = ["/"] := by
    simp [Path.ancestors, Path.ancestorsOfReversed, Path.above, Path.dropTrailing]
  have hcreate : (fileSystem.createDirectory "/").run tree = (.error .alreadyExists, tree) := by
    change tree.createDirectory "/" = _
    rw [createDirectory, hslash, locate_top hworking htop]
  have hthere : (fileSystem.isDirectory "/").run tree = (true, tree) := by
    change (tree.isDirectory "/", tree) = _
    rw [isDirectory, locate_top hworking htop, htop]
  have hensure : (fileSystem.ensureDirectory "/").run tree = (.ok (), tree) := by
    rw [FileSystem.ensureDirectory, run_bind_eq hcreate]
    dsimp only
    rw [run_bind_eq hthere]
    rfl
  rw [FileSystem.createDirectories, habove, FileSystem.createFirst, run_bind_eq hensure]
  rfl

end Top

theorem kindAt?_of_locate (h : tree.locate path = .ok found) :
    tree.kindAt? (tree.placeOf path) = found.node.map FileNode.kind := by
  obtain ⟨hin, hplace⟩ := isIn_of_follow (follow_of_locate h)
  rw [kindAt?, ← hplace, hin.at?_place]

/-- What is read is the content at the place of the path. -/
theorem contentAt?_of_read (h : tree.read path = .ok content) :
    ∃ found, tree.locate path = .ok found ∧ tree.contentAt? found.place = some content := by
  rw [read, except_bind_eq_ok_iff] at h
  obtain ⟨found, hfound, h⟩ := h
  refine ⟨found, hfound, ?_⟩
  rw [contentAt?, place_of_locate hfound, kindAt?_of_locate hfound]
  rcases hnode : found.node with _ | written | entries
  · rw [hnode] at h
    cases h
  · rw [hnode] at h
    dsimp only at h
    split at h
    · cases h
    · cases h
      rfl
  · rw [hnode] at h
    dsimp only at h
    split at h <;> cases h

/-! ## Creating directories -/

/-- The working directory stays, and every place has what it had, except that there may be a
directory where there was nothing. -/
structure AddsDirectories (before after : FileTree) : Prop where
  working : after.working = before.working
  kindAt? : ∀ place, after.kindAt? place = before.kindAt? place
    ∨ before.kindAt? place = none ∧ after.kindAt? place = some .directory

namespace AddsDirectories

theorem refl (tree : FileTree) : AddsDirectories tree tree := ⟨rfl, fun _ => .inl rfl⟩

theorem keepsDirectories (h : AddsDirectories before after) : KeepsDirectories before after := by
  refine ⟨h.working, fun place hplace => ?_⟩
  rcases h.kindAt? place with hsame | ⟨-, hnew⟩
  · rw [hsame, hplace]
  · exact hnew

/-- No file is another one. -/
theorem contentAt?_eq (h : AddsDirectories before after) (place : List String) :
    after.contentAt? place = before.contentAt? place := by
  rw [contentAt?, contentAt?]
  rcases h.kindAt? place with hsame | ⟨hnone, hnew⟩
  · rw [hsame]
  · rw [hnone, hnew]

end AddsDirectories

/-- What is put at a place where no directory stands changes nothing else. -/
theorem kindAt?_put (h : found.IsIn tree.top)
    (hfree : found.node.map FileNode.kind ≠ some .directory) (new : FileNode)
    (hnew : ∀ name, new.child? name = none) (place : List String) :
    (tree.put found.place new).kindAt? place
      = if place = found.place then some new.kind else tree.kindAt? place := by
  rw [← h.at?_place] at hfree
  exact FileNode.kind_at?_put h.hasRoom hfree hnew place

theorem addsDirectories_createDirectory (tree : FileTree) (path : String) :
    AddsDirectories tree (tree.createDirectory path).2 := by
  unfold createDirectory
  split
  · exact .refl tree
  · exact .refl tree
  · next found hnode hfound =>
    obtain ⟨hin, -⟩ := isIn_of_follow (follow_of_locate hfound)
    have hnone : found.node = none := by
      obtain ⟨names, parents, _ | node⟩ := found
      · rfl
      · exact absurd rfl (hnode _ _ _)
    have hput := kindAt?_put hin (by rw [hnone]; exact nofun) (.directory []) fun _ => rfl
    refine ⟨rfl, fun place => ?_⟩
    rw [hput]
    split
    · next hplace =>
      refine .inr ⟨?_, rfl⟩
      rw [kindAt?, hplace, hin.at?_place, hnone]
      rfl
    · exact .inl rfl

/-! ## Writing -/

/-- A file is not written, and nothing changes, or it is written to where its path leads, where no
directory is. -/
theorem write_cases (tree : FileTree) (path : String) (content : Bytes) :
    (∃ e, tree.write path content = (.error e, tree))
      ∨ ∃ found, tree.locate path = .ok found
        ∧ found.node.map FileNode.kind ≠ some .directory
        ∧ tree.write path content = (.ok (), tree.put found.place (.file content)) := by
  unfold write
  split
  · exact .inl ⟨_, rfl⟩
  · exact .inl ⟨_, rfl⟩
  · next found hnode hfound =>
    refine .inr ⟨found, hfound, fun hkind => ?_, rfl⟩
    obtain ⟨node, hsome, hdirectory⟩ := Option.map_eq_some_iff.1 hkind
    obtain ⟨entries, rfl⟩ := FileNode.kind_eq_directory_iff.1 hdirectory
    obtain ⟨names, parents, _⟩ := found
    cases hsome
    exact hnode _ _ _ rfl

/-! ## The laws -/

/-- The files of a tree by their places. -/
def view : FileView FileTree (List String) where
  placeOf? tree path := (tree.locate path).toOption.map Whereabouts.place
  contentAt? := contentAt?

theorem placeOf?_eq_some_iff {place : List String} : view.placeOf? tree path = some place ↔
    ∃ found, tree.locate path = .ok found ∧ found.place = place := by
  change (tree.locate path).toOption.map Whereabouts.place = some place ↔ _
  cases tree.locate path <;> simp [Except.toOption]

/-- Where directories stay, paths lead where they did. -/
theorem KeepsDirectories.keepsPaths (h : KeepsDirectories before after) :
    view.KeepsPaths before after := by
  intro path place hplace
  obtain ⟨found, hfound, rfl⟩ := placeOf?_eq_some_iff.1 hplace
  obtain ⟨found', hfound'⟩ := h.exists_locate hfound
  refine placeOf?_eq_some_iff.2 ⟨found', hfound', ?_⟩
  rw [place_of_locate hfound', place_of_locate hfound, placeOf_congr h.working]

theorem AddsDirectories.keepsFiles (h : AddsDirectories before after) :
    view.KeepsFiles before after := ⟨h.keepsDirectories.keepsPaths, h.contentAt?_eq⟩

theorem writes_of_write (h : before.write path content = (.ok (), after)) :
    view.Writes before path content after := by
  rcases write_cases before path content with ⟨e, herror⟩ | ⟨found, hfound, hfree, hwrite⟩
  · cases herror.symm.trans h
  · obtain rfl : before.put found.place (.file content) = after :=
      congrArg Prod.snd (hwrite.symm.trans h)
    obtain ⟨hin, hplace⟩ := isIn_of_follow (follow_of_locate hfound)
    have hput := kindAt?_put hin hfree (.file content) fun _ => rfl
    have hkeeps : KeepsDirectories before (before.put found.place (.file content)) := by
      refine ⟨rfl, fun place hdirectory => ?_⟩
      rw [hput, if_neg, hdirectory]
      rintro rfl
      rw [kindAt?, hin.at?_place] at hdirectory
      exact hfree hdirectory
    refine ⟨hkeeps.keepsPaths, found.place, ?_, ?_, fun other hother => ?_⟩
    · exact hkeeps.keepsPaths _ _ (placeOf?_eq_some_iff.2 ⟨found, hfound, rfl⟩)
    · change contentAt? _ _ = _
      rw [contentAt?, hput, if_pos rfl]
      rfl
    · change contentAt? _ _ = contentAt? _ _
      rw [contentAt?, hput, if_neg hother, contentAt?]

theorem isLawful : fileSystem.IsLawful view where
  canonical _ _ := rfl
  isDirectory _ _ := rfl
  walk _ _ := rfl
  read _ _ := rfl
  content_of_read path tree content h := by
    obtain ⟨found, hfound, hcontent⟩ := contentAt?_of_read h
    exact ⟨found.place, placeOf?_eq_some_iff.2 ⟨found, hfound, rfl⟩, hcontent⟩
  createDirectory path tree := (addsDirectories_createDirectory tree path).keepsFiles
  write _ _ _ _ := writes_of_write

/-- Only one class with a proper name has its file at a place. -/
theorem eq_of_placeOf?_join {base : String} {name name' : ClassName} {place : List String}
    (h : Descriptor.isClassName name.internal = true)
    (h' : Descriptor.isClassName name'.internal = true)
    (hplace : view.placeOf? tree (Path.join base name.filePath) = some place)
    (hplace' : view.placeOf? tree (Path.join base name'.filePath) = some place) : name = name' := by
  obtain ⟨found, hfound, rfl⟩ := placeOf?_eq_some_iff.1 hplace
  obtain ⟨found', hfound', hsame⟩ := placeOf?_eq_some_iff.1 hplace'
  rw [place_of_locate hfound, place_of_locate hfound'] at hsame
  exact placeOf_join_filePath_injective h h' hsame.symm

end FileTree

end AnnotationGraft
