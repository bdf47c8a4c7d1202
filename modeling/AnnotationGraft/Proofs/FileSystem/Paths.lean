import AnnotationGraft.ClassFile.Basic
import AnnotationGraft.FileSystem.FileTree
import AnnotationGraft.Proofs.Descriptor.Reading

/-!
# The paths of class files

`Path.resolve` follows components from a place on by their text alone.  Below any base, the path of
a class leads where its name says: the components of a class name are names of their own
(`Path.IsName`), none of which stands for a directory that it follows or for the one above.  So the
file of a class is below its base, at the components of its path (`ClassName.resolve_filePath`).
-/

namespace AnnotationGraft

/-! ## Components -/

namespace Path

variable {place : List String}

theorem components_injective {path path' : String} (h : components path = components path') :
    path = path' := by
  have hpieces : Text.segments '/' path.toList = Text.segments '/' path'.toList :=
    List.map_injective_iff.2 (fun _ _ => String.ofList_injective) h
  rw [← String.toList_inj, ← Text.join_segments '/' path.toList, hpieces, Text.join_segments]

/-- Goes from a place to the one that a component leads to.  Above the top there is the top. -/
def step (place : List String) (component : String) : List String :=
  if Whereabouts.isHere component then place
  else if component = ".." then place.dropLast
  else place ++ [component]

/-- The place to which components lead from another one. -/
def resolve (place : List String) (components : List String) : List String :=
  components.foldl step place

theorem resolve_append (components components' : List String) :
    resolve place (components ++ components') = resolve (resolve place components) components' :=
  List.foldl_append

/-- Whether a component is the name of something in the directory that it follows. -/
def IsName (component : String) : Prop :=
  Whereabouts.isHere component = false ∧ component ≠ ".."

theorem resolve_of_names {names : List String} (h : ∀ name ∈ names, IsName name) :
    resolve place names = place ++ names := by
  induction names generalizing place with
  | nil => exact (List.append_nil place).symm
  | cons name names ih =>
    obtain ⟨hname, hnames⟩ := List.forall_mem_cons.1 h
    have hstep : step place name = place ++ [name] := by
      rw [step, if_neg (by rw [hname.1]; exact Bool.false_ne_true), if_neg hname.2]
    rw [resolve, List.foldl_cons, hstep, ← resolve, ih hnames, List.append_assoc,
      List.singleton_append]

/-! ## Paths below a base -/

theorem endsWith_slash_iff {path : String} :
    path.endsWith "/" = true ↔ ∃ front, path.toList = front ++ ['/'] := by
  refine String.Slice.endsWith_string_iff.trans ?_
  simp only [String.copy_toSlice, String.reduceToList, List.suffix_iff_exists_append_eq, eq_comm]

theorem startsWith_slash_iff {path : String} :
    path.startsWith "/" = true ↔ ∃ back, path.toList = '/' :: back := by
  rw [String.startsWith_string_iff]
  simp only [String.reduceToList, List.prefix_iff_exists_append_eq, List.singleton_append, eq_comm]

/-- Which names are those of class files, told by their characters. -/
theorem isClassFileName_iff {name : String} :
    isClassFileName name = true ↔ ".class".toList <:+ name.toList ∧ name ≠ ".class" := by
  rw [isClassFileName, Bool.and_eq_true_iff, bne_iff_ne]
  refine and_congr_left' (String.Slice.endsWith_string_iff.trans ?_)
  rw [String.copy_toSlice]

/-- How a path is joined to a base, told by the characters of the two. -/
theorem join_eq (base path : String) : join base path =
    if path.toList.head? = some '/' then path
    else if base = "" ∨ base.toList.getLast? = some '/' then base ++ path
    else base ++ "/" ++ path := by
  have hstarts : path.startsWith "/" = true ↔ path.toList.head? = some '/' := by
    rw [startsWith_slash_iff, List.head?_eq_some_iff]
  have hends : (base == "" || base.endsWith "/") = true
      ↔ base = "" ∨ base.toList.getLast? = some '/' := by
    rw [Bool.or_eq_true_iff, beq_iff_eq, endsWith_slash_iff, List.getLast?_eq_some_iff]
  simp only [join, hstarts, hends]

/-- A path that does not lead from the top is written after its base, and after a slash where the
base has none at its end. -/
theorem join_cases (base : String) {path : String} (hpath : path.startsWith "/" = false) :
    (base = "" ∧ join base path = path)
      ∨ (∃ front, base.toList = front ++ ['/']
        ∧ (join base path).toList = base.toList ++ path.toList)
      ∨ base ≠ "" ∧ (join base path).toList = base.toList ++ '/' :: path.toList := by
  rw [join, if_neg (by rw [hpath]; exact Bool.false_ne_true)]
  split
  · next hnone =>
    rcases Bool.or_eq_true_iff.1 hnone with hempty | hends
    · obtain rfl := beq_iff_eq.1 hempty
      exact .inl ⟨rfl, String.empty_append⟩
    · obtain ⟨front, hfront⟩ := endsWith_slash_iff.1 hends
      exact .inr (.inl ⟨front, hfront, String.toList_append⟩)
  · next hsome =>
    refine .inr (.inr ⟨fun hempty => hsome (by simp [hempty]), ?_⟩)
    simp

/-- A path that does not lead from the top leads on from where a base leads to. -/
theorem resolve_components_join (base : String) {path : String}
    (hpath : path.startsWith "/" = false) :
    resolve place (components (join base path))
      = resolve (resolve place (components base)) (components path) := by
  have hslash : ∀ front : List Char,
      (Text.segments '/' (front ++ '/' :: path.toList)).map String.ofList
        = (Text.segments '/' front).map String.ofList ++ components path := by
    intro front
    rw [Text.segments_append_sep, List.map_append, components]
  rcases join_cases base hpath with ⟨rfl, hjoin⟩ | ⟨front, hfront, hjoin⟩ | ⟨-, hjoin⟩
  · -- The base has one component, which is empty.
    rw [hjoin]
    rfl
  · -- The base has one more component, which is empty.
    rw [components, components, hjoin, hfront, List.append_assoc, List.singleton_append, hslash,
      resolve_append, Text.segments_append_sep, List.map_append, resolve_append]
    rfl
  · rw [components, hjoin, hslash, resolve_append]
    rfl

/-- With a path that does not lead from the top, it depends on the base whether the whole does. -/
theorem startsWith_slash_join (base : String) {path : String}
    (hpath : path.startsWith "/" = false) :
    (join base path).startsWith "/" = base.startsWith "/" := by
  rcases join_cases base hpath with ⟨rfl, hjoin⟩ | ⟨front, hfront, hjoin⟩ | ⟨hempty, hjoin⟩
  · have hnone : "".startsWith "/" = false := by decide +kernel
    rw [hjoin, hpath, hnone]
  · rw [Bool.eq_iff_iff, startsWith_slash_iff, startsWith_slash_iff, hjoin, hfront]
    cases front <;> simp
  · rw [Bool.eq_iff_iff, startsWith_slash_iff, startsWith_slash_iff, hjoin]
    rcases hbase : base.toList with _ | ⟨c, cs⟩
    · exact absurd (String.toList_eq_nil_iff.1 hbase) hempty
    · simp

end Path

/-! ## The paths of classes -/

namespace Path

/-- Each piece of a text between slashes has a character that is not a dot. -/
def HasNames (cs : List Char) : Prop :=
  ∀ piece ∈ Text.segments '/' cs, ∃ c ∈ piece, c ≠ '.'

variable {cs : List Char}

theorem hasNames_singleton {c : Char} (hslash : c ≠ '/') (hdot : c ≠ '.') : HasNames [c] := by
  intro piece hpiece
  obtain rfl : piece = [c] := by simpa [Text.segments, hslash] using hpiece
  exact ⟨c, List.mem_singleton_self c, hdot⟩

theorem HasNames.append_front {front : List Char} (hfront : '/' ∉ front) (h : HasNames cs) :
    HasNames (front ++ cs) := by
  induction front with
  | nil => exact h
  | cons c front ih =>
    rw [List.mem_cons, not_or] at hfront
    obtain ⟨piece, rest, hpieces, hcons⟩ :=
      Text.segments_cons_of_ne (Ne.symm hfront.1) (front ++ cs)
    have hfront := ih hfront.2
    unfold HasNames at hfront ⊢
    rw [hpieces, List.forall_mem_cons] at hfront
    rw [List.cons_append, hcons, List.forall_mem_cons]
    obtain ⟨d, hd, hdot⟩ := hfront.1
    exact ⟨⟨d, List.mem_cons_of_mem c hd, hdot⟩, hfront.2⟩

theorem HasNames.append_tail {tail : List Char} (htail : '/' ∉ tail) (h : HasNames cs) :
    HasNames (cs ++ tail) := by
  obtain ⟨front, last, hcs, happend⟩ := Text.segments_append_of_not_mem cs htail
  unfold HasNames at h ⊢
  rw [hcs, List.forall_mem_append, List.forall_mem_singleton] at h
  rw [happend, List.forall_mem_append, List.forall_mem_singleton]
  obtain ⟨d, hd, hdot⟩ := h.2
  exact ⟨h.1, d, List.mem_append_left tail hd, hdot⟩

/-- Such a text does not begin with a slash. -/
theorem HasNames.startsWith_slash {path : String} (h : HasNames path.toList) :
    path.startsWith "/" = false := by
  refine eq_false_of_ne_true fun hslash => ?_
  obtain ⟨back, hback⟩ := startsWith_slash_iff.1 hslash
  rw [hback] at h
  obtain ⟨c, hc, -⟩ := h [] (by simp [Text.segments])
  cases hc

theorem HasNames.isName {path component : String} (h : HasNames path.toList)
    (hmem : component ∈ components path) : IsName component := by
  obtain ⟨piece, hpiece, rfl⟩ := List.mem_map.1 hmem
  obtain ⟨c, hc, hdot⟩ := h piece hpiece
  -- None of the three components with a meaning of their own has such a character.
  have hother : ∀ dots : String, (∀ d ∈ dots.toList, d = '.') → String.ofList piece ≠ dots := by
    rintro dots hdots rfl
    exact hdot (hdots c (by simpa using hc))
  refine ⟨?_, hother ".." (by simp)⟩
  rw [Whereabouts.isHere, beq_false_of_ne (hother "" (by simp)),
    beq_false_of_ne (hother "." (by simp)), Bool.or_false]

end Path

namespace Descriptor

open AnnotationGraft.Path (HasNames hasNames_singleton)

theorem hasNames_of_isPlainClassName {name : List Char} (h : isPlainClassName name = true) :
    HasNames name := by
  intro piece hpiece
  have hsegment := List.all_eq_true.1 h piece hpiece
  rw [isNameSegment, Bool.and_eq_true] at hsegment
  cases piece with
  | nil => exact absurd hsegment.1 (by decide)
  | cons c piece =>
    refine ⟨c, List.mem_cons_self, ?_⟩
    rintro rfl
    exact absurd (List.all_eq_true.1 hsegment.2 '.' List.mem_cons_self) (by decide)

theorem hasNames_of_isElementText {cs : List Char} (h : IsElementText cs) : HasNames cs := by
  cases h with
  | base hc =>
    exact hasNames_singleton (ne_of_mem_of_not_mem hc (by decide))
      (ne_of_mem_of_not_mem hc (by decide))
  | object hname =>
    exact ((hasNames_of_isPlainClassName (isPlainClassName_iff.2 hname)).append_front
      (by decide : '/' ∉ ['L'])).append_tail (by decide)

theorem hasNames_of_isFieldText {cs : List Char} (h : IsFieldText cs) : HasNames cs := by
  obtain ⟨-, helement⟩ := h
  refine (hasNames_of_isElementText helement).append_front fun hslash => ?_
  exact absurd (List.eq_of_mem_replicate hslash) (by decide)

theorem hasNames_of_isClassName {name : String} (h : isClassName name = true) :
    HasNames name.toList := by
  rw [isClassName] at h
  split at h
  · exact hasNames_of_isFieldText (isFieldTypeText_iff.1 h)
  · exact hasNames_of_isPlainClassName h

end Descriptor

namespace ClassName

variable {name name' : ClassName}

theorem filePath_injective (h : name.filePath = name'.filePath) : name = name' := by
  cases name
  cases name'
  exact congrArg mk ((String.append_left_inj _).1 h)

theorem hasNames_filePath (h : Descriptor.isClassName name.internal = true) :
    Path.HasNames name.filePath.toList := by
  rw [filePath, String.toList_append]
  exact (Descriptor.hasNames_of_isClassName h).append_tail (by decide)

/-- Below any place, the file of a class is at the components of its path. -/
theorem resolve_filePath (h : Descriptor.isClassName name.internal = true) (place : List String) :
    Path.resolve place (Path.components name.filePath)
      = place ++ Path.components name.filePath :=
  Path.resolve_of_names fun _ hmem => (hasNames_filePath h).isName hmem

end ClassName

end AnnotationGraft
