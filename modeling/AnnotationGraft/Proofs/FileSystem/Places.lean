import AnnotationGraft.FileSystem.FileTree
import AnnotationGraft.Proofs.FileSystem.Paths
import AnnotationGraft.Proofs.Outcome

/-!
# What stands at the places of a tree

`FileTree.kindAt?` says what a tree has at a place: nothing, a directory, or a file with its
content.  A path that leads somewhere leads to the place that its text says, `FileTree.placeOf`, and
finds there what stands at this place (`FileTree.isIn_of_follow`).  Where it leads depends on
directories only, so it leads to the same place in every tree that has these directories
(`FileTree.KeepsDirectories.exists_follow`).

A file or an empty directory that is put into a tree changes what stands at its own place, and
nothing else (`FileNode.kind_at?_put`).
-/

namespace AnnotationGraft

/-! ## Kinds of nodes -/

/-- What a node is for those who do not look into directories. -/
inductive FileKind where
  | file (content : Bytes)
  | directory
  deriving DecidableEq

/-- Whether a node is a file, with its content, or a directory. -/
def FileNode.kind : FileNode → FileKind
  | file content => .file content
  | directory _ => .directory

namespace FileNode

variable {node new : FileNode} {place : List String} {name : String}

theorem kind_eq_directory_iff :
    (node.kind = .directory) ↔ ∃ entries, node = directory entries := by
  cases node with
  | file content => simp [kind]
  | directory entries => simp [kind]

theorem at?_append (node : FileNode) (place place' : List String) :
    node.at? (place ++ place') = (node.at? place).bind (·.at? place') := by
  induction place generalizing node with
  | nil => rfl
  | cons name place ih =>
    rw [List.cons_append, at?, at?, Option.bind_assoc]
    exact Option.bind_congr fun child _ => ih child

theorem lookup_setEntry (name other : String) (new : FileNode)
    (entries : List (String × FileNode)) :
    (setEntry name new entries).lookup other
      = if other = name then some new else entries.lookup other := by
  induction entries with
  | nil =>
    by_cases hother : other = name
    · simp [setEntry, hother]
    · simp [setEntry, List.lookup_cons, beq_false_of_ne hother, hother]
  | cons entry entries ih =>
    obtain ⟨key, node⟩ := entry
    by_cases hkey : key = name
    · subst hkey
      by_cases hother : other = key
      · simp [setEntry, hother]
      · simp [setEntry, List.lookup_cons, beq_false_of_ne hother, hother]
    · rw [setEntry, if_neg hkey, List.lookup_cons, List.lookup_cons, ih]
      by_cases hother : other = key
      · subst hother
        simp [hkey]
      · rw [beq_false_of_ne hother]

/-! ## Putting a node at a place -/

/-- There is room for something at a place: all that is above it is there, and is a directory. -/
def HasRoom : FileNode → List String → Prop
  | _, [] => True
  | file _, _ :: _ => False
  | directory entries, name :: place =>
    match entries.lookup name with
    | none => place = []
    | some child => child.HasRoom place

theorem hasRoom_concat {entries : List (String × FileNode)}
    (h : node.at? place = some (directory entries)) (name : String) :
    node.HasRoom (place ++ [name]) := by
  induction place generalizing node with
  | nil =>
    obtain rfl : node = directory entries := Option.some.inj h
    rw [List.nil_append, HasRoom]
    split
    · rfl
    · exact trivial
  | cons first place ih =>
    rw [at?, Option.bind_eq_some_iff] at h
    obtain ⟨child, hchild, hplace⟩ := h
    cases node with
    | file content => cases hchild
    | directory entries' =>
      rw [child?] at hchild
      rw [List.cons_append, HasRoom, hchild]
      exact ih hplace

/-- A node with nothing in it that is put at a place where no directory stands changes what stands
at this place, and nothing else. -/
theorem kind_at?_put (hroom : node.HasRoom place)
    (hfree : (node.at? place).map kind ≠ some .directory) (hnew : ∀ name, new.child? name = none)
    (place' : List String) :
    ((node.put place new).at? place').map kind
      = if place' = place then some new.kind else (node.at? place').map kind := by
  have hbelow : ∀ name place, new.at? (name :: place) = none := by
    intro name place
    rw [at?, hnew]
    rfl
  -- The induction follows the way to the place; the other place takes the same way or leaves it.
  induction place generalizing node place' with
  | nil =>
    have hput : node.put [] new = new := by cases node <;> rfl
    rw [hput]
    cases place' with
    | nil => rfl
    | cons name place' =>
      rw [hbelow, if_neg (List.cons_ne_nil _ _)]
      cases node with
      | file content => rfl
      | directory entries => exact absurd rfl hfree
  | cons name place ih =>
    cases node with
    | file content => exact hroom.elim
    | directory entries =>
      cases place' with
      | nil => rfl
      | cons name' place' =>
        rw [put, at?, at?, child?, child?, lookup_setEntry]
        by_cases hname : name' = name
        · subst hname
          simp only [if_true, Option.bind_some, List.cons.injEq, true_and]
          rw [HasRoom] at hroom
          rw [at?, child?] at hfree
          cases hchild : entries.lookup name' with
          | none =>
            rw [hchild] at hroom
            subst hroom
            have hput : ((none : Option FileNode).getD (directory [])).put [] new = new := rfl
            rw [hput]
            cases place' with
            | nil => rfl
            | cons name place' => rw [hbelow, if_neg (List.cons_ne_nil _ _)]; rfl
          | some child =>
            rw [hchild] at hroom hfree
            exact ih hroom hfree place'
        · rw [if_neg hname, if_neg fun h => hname (List.cons.inj h).1]

end FileNode

/-! ## Following a path -/

namespace Whereabouts

variable {top : FileNode} {whereabouts found : Whereabouts} {component : String}

/-- The whereabouts that can be reached in a tree: its top, and from a directory what it holds, or
does not hold, under a name. -/
inductive IsIn (top : FileNode) : Whereabouts → Prop where
  | top : IsIn top ⟨[], [], some top⟩
  | entry {names : List String} {parents : List FileNode} {entries : List (String × FileNode)}
      (parent : IsIn top ⟨names, parents, some (.directory entries)⟩) (name : String) :
      IsIn top ⟨name :: names, .directory entries :: parents, entries.lookup name⟩

/-- What is there is what the tree has at the place. -/
theorem IsIn.at?_place (h : IsIn top whereabouts) :
    top.at? whereabouts.place = whereabouts.node := by
  induction h with
  | top => rfl
  | entry parent name ih =>
    rw [place] at ih ⊢
    rw [List.reverse_cons, FileNode.at?_append, ih, Option.bind_some, FileNode.at?,
      FileNode.child?]
    cases List.lookup name _ <;> rfl

theorem IsIn.hasRoom (h : IsIn top whereabouts) : top.HasRoom whereabouts.place := by
  cases h with
  | top => exact trivial
  | entry parent name =>
    rw [place, List.reverse_cons]
    exact FileNode.hasRoom_concat parent.at?_place name

/-- A component can be followed from a directory, unless it is too long for a name. -/
theorem exists_step_iff : (∃ found, whereabouts.step component = .ok found) ↔
    (∃ entries, whereabouts.node = some (.directory entries))
      ∧ (isHere component = true ∨ component = ".."
        ∨ component.utf8ByteSize ≤ maxNameSize) := by
  unfold step
  rcases hnode : whereabouts.node with _ | content | entries
  · simp
  · simp
  · by_cases hhere : isHere component = true
    · simp [hhere]
    · by_cases hup : component = ".."
      · subst hup
        refine iff_of_true ?_ ⟨⟨entries, rfl⟩, .inr (.inl rfl)⟩
        dsimp only
        rw [if_neg hhere, if_pos rfl]
        split
        · exact ⟨_, rfl⟩
        · exact ⟨_, rfl⟩
      · by_cases hlong : maxNameSize < component.utf8ByteSize
        · simp [hhere, hup, hlong]
        · simp [hhere, hup, hlong, Nat.le_of_not_lt hlong]

/-- A component leads to the place that it says. -/
theorem IsIn.step (h : IsIn top whereabouts) (hstep : whereabouts.step component = .ok found) :
    IsIn top found ∧ found.place = Path.step whereabouts.place component := by
  unfold Whereabouts.step at hstep
  split at hstep
  · cases hstep
  · cases hstep
  · next entries hnode =>
    rw [Path.step]
    split at hstep
    · next hhere =>
      cases hstep
      rw [if_pos hhere]
      exact ⟨h, rfl⟩
    · next hhere =>
      rw [if_neg hhere]
      split at hstep
      · next hup =>
        rw [if_pos hup]
        cases h with
        | top =>
          cases hstep
          exact ⟨.top, rfl⟩
        | entry parent name =>
          cases hstep
          exact ⟨parent, by simp [place]⟩
      · next hup =>
        rw [if_neg hup]
        split at hstep
        · cases hstep
        · cases hstep
          obtain ⟨names, parents, node⟩ := whereabouts
          obtain rfl : node = some (.directory entries) := hnode
          exact ⟨.entry h component, List.reverse_cons⟩

theorem IsIn.foldlM_step {components : List String} (h : IsIn top whereabouts)
    (hsteps : components.foldlM Whereabouts.step whereabouts = .ok found) :
    IsIn top found ∧ found.place = Path.resolve whereabouts.place components := by
  induction components generalizing whereabouts with
  | nil =>
    cases hsteps
    exact ⟨h, rfl⟩
  | cons component components ih =>
    rw [List.foldlM_cons, except_bind_eq_ok_iff] at hsteps
    obtain ⟨next, hstep, hrest⟩ := hsteps
    obtain ⟨hnext, hplace⟩ := h.step hstep
    rw [Path.resolve, List.foldl_cons, ← hplace]
    exact ih hnext hrest

end Whereabouts

namespace FileTree

variable {tree before after : FileTree} {path : String} {place : List String}
  {found : Whereabouts} {content : Bytes}

/-- What the tree has at a place. -/
def kindAt? (tree : FileTree) (place : List String) : Option FileKind :=
  (tree.top.at? place).map FileNode.kind

/-- The content of the file at a place, if there is one. -/
def contentAt? (tree : FileTree) (place : List String) : Option Bytes :=
  match tree.kindAt? place with
  | some (.file content) => some content
  | _ => none

/-- The place that a path says. -/
def placeOf (tree : FileTree) (path : String) : List String :=
  Path.resolve (if path.startsWith "/" then [] else Path.resolve [] tree.working)
    (Path.components path)

theorem placeOf_congr (h : after.working = before.working) (path : String) :
    after.placeOf path = before.placeOf path := by
  rw [placeOf, placeOf, h]

/-- The file of a class below a base is below the place of the base. -/
theorem placeOf_join_filePath {name : ClassName}
    (h : Descriptor.isClassName name.internal = true) (base : String) :
    tree.placeOf (Path.join base name.filePath)
      = tree.placeOf base ++ Path.components name.filePath := by
  have hrelative := (ClassName.hasNames_filePath h).startsWith_slash
  rw [placeOf, Path.startsWith_slash_join base hrelative,
    Path.resolve_components_join base hrelative, ClassName.resolve_filePath h]
  rfl

/-- The files of two classes below one base have two places. -/
theorem placeOf_join_filePath_injective {base : String} {name name' : ClassName}
    (h : Descriptor.isClassName name.internal = true)
    (h' : Descriptor.isClassName name'.internal = true)
    (hsame : tree.placeOf (Path.join base name.filePath)
      = tree.placeOf (Path.join base name'.filePath)) : name = name' := by
  rw [placeOf_join_filePath h, placeOf_join_filePath h'] at hsame
  exact ClassName.filePath_injective (Path.components_injective (List.append_cancel_left hsame))

theorem follow_eq_ok_iff : tree.follow path = .ok found ↔
    path.contains (Char.ofNat 0) = false ∧ path ≠ ""
      ∧ ∃ start, (if path.startsWith "/" then .ok ⟨[], [], some tree.top⟩
          else tree.working.foldlM Whereabouts.step ⟨[], [], some tree.top⟩) = .ok start
        ∧ (Path.components path).foldlM Whereabouts.step start = .ok found := by
  unfold follow
  by_cases hzero : path.contains (Char.ofNat 0) = true
  · rw [if_pos hzero, hzero]
    exact iff_of_false nofun fun h => nomatch h.1
  · rw [if_neg hzero]
    by_cases hempty : path = ""
    · rw [if_pos hempty]
      exact iff_of_false nofun fun h => h.2.1 hempty
    · rw [if_neg hempty, and_iff_right (eq_false_of_ne_true hzero), and_iff_right hempty]
      dsimp only
      split
      · exact except_bind_eq_ok_iff
      · exact except_bind_eq_ok_iff

/-- A path that leads somewhere leads to its place. -/
theorem isIn_of_follow (h : tree.follow path = .ok found) :
    found.IsIn tree.top ∧ found.place = tree.placeOf path := by
  obtain ⟨-, -, start, hstart, hfound⟩ := follow_eq_ok_iff.1 h
  have hfrom : start.IsIn tree.top
      ∧ start.place = if path.startsWith "/" then [] else Path.resolve [] tree.working := by
    split at hstart
    · next habsolute =>
      cases hstart
      rw [if_pos habsolute]
      exact ⟨.top, rfl⟩
    · next hrelative =>
      rw [if_neg hrelative]
      exact Whereabouts.IsIn.top.foldlM_step hstart
  obtain ⟨hin, hplace⟩ := hfrom.1.foldlM_step hfound
  rw [hfrom.2] at hplace
  exact ⟨hin, hplace⟩

/-! ## Trees with the same directories -/

/-- The working directory stays, and what was a directory is one. -/
structure KeepsDirectories (before after : FileTree) : Prop where
  working : after.working = before.working
  directory : ∀ place, before.kindAt? place = some .directory →
    after.kindAt? place = some .directory

namespace KeepsDirectories

/-- Where components can be followed, they can be followed as long as the directories are kept. -/
theorem exists_foldlM_step (h : KeepsDirectories before after) {components : List String}
    {start start' : Whereabouts} (hstart : start.IsIn before.top)
    (hstart' : start'.IsIn after.top) (hsame : start'.place = start.place)
    (hsteps : components.foldlM Whereabouts.step start = .ok found) :
    ∃ found', components.foldlM Whereabouts.step start' = .ok found' := by
  induction components generalizing start start' with
  | nil => exact ⟨start', rfl⟩
  | cons component components ih =>
    rw [List.foldlM_cons, except_bind_eq_ok_iff] at hsteps
    obtain ⟨next, hstep, hrest⟩ := hsteps
    -- Both stand at one place, which is a directory in the first tree and so in the second.
    obtain ⟨⟨entries, hnode⟩, hform⟩ := Whereabouts.exists_step_iff.1 ⟨next, hstep⟩
    have hdirectory : after.kindAt? start.place = some .directory :=
      h.directory _ (by rw [kindAt?, hstart.at?_place, hnode]; rfl)
    rw [kindAt?, ← hsame, hstart'.at?_place, Option.map_eq_some_iff] at hdirectory
    obtain ⟨node, hnode', hkind⟩ := hdirectory
    obtain ⟨entries', rfl⟩ := FileNode.kind_eq_directory_iff.1 hkind
    obtain ⟨next', hstep'⟩ := Whereabouts.exists_step_iff.2 ⟨⟨entries', hnode'⟩, hform⟩
    have hplaces := (hstart'.step hstep').2.trans
      ((congrArg (Path.step · component) hsame).trans (hstart.step hstep).2.symm)
    obtain ⟨found', hfound'⟩ := ih (hstart.step hstep).1 (hstart'.step hstep').1 hplaces hrest
    exact ⟨found', by rw [List.foldlM_cons, hstep']; exact hfound'⟩

/-- A path that leads somewhere does so as long as the directories are kept. -/
theorem exists_follow (h : KeepsDirectories before after)
    (hfound : before.follow path = .ok found) : ∃ found', after.follow path = .ok found' := by
  obtain ⟨hzero, hempty, start, hstart, hsteps⟩ := follow_eq_ok_iff.1 hfound
  have htop : (⟨[], [], some before.top⟩ : Whereabouts).IsIn before.top := .top
  have htop' : (⟨[], [], some after.top⟩ : Whereabouts).IsIn after.top := .top
  by_cases habsolute : path.startsWith "/" = true
  · rw [if_pos habsolute] at hstart
    cases hstart
    obtain ⟨found', hfound'⟩ := h.exists_foldlM_step htop htop' rfl hsteps
    exact ⟨found', follow_eq_ok_iff.2 ⟨hzero, hempty, _, if_pos habsolute, hfound'⟩⟩
  · rw [if_neg habsolute] at hstart
    obtain ⟨start', hstart'⟩ := h.exists_foldlM_step htop htop' rfl hstart
    obtain ⟨hin, hplace⟩ := htop.foldlM_step hstart
    obtain ⟨hin', hplace'⟩ := htop'.foldlM_step hstart'
    obtain ⟨found', hfound'⟩ :=
      h.exists_foldlM_step hin hin' (hplace'.trans hplace.symm) hsteps
    exact ⟨found', follow_eq_ok_iff.2 ⟨hzero, hempty, start',
      by rw [if_neg habsolute, h.working, hstart'], hfound'⟩⟩

end KeepsDirectories

end FileTree

end AnnotationGraft
