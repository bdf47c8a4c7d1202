import AnnotationGraft.Descriptor.SourceForm
import AnnotationGraft.Proofs.Descriptor.Reading

/-!
# Splitting method descriptors

`Descriptor.splitMethod` looks for the first closing parenthesis and cuts what stands before it at
the semicolons.  A descriptor has one split into types (`isSplitOf_iff`), and this is the one that
is found exactly when no parameter is of a class with a closing parenthesis in its name.  Otherwise
the parameters end in the middle of that name, and the signature that is shown has the rest of it
for its result (`splitMethod_eq_iff`, `methodSignature_eq_iff`).
-/

namespace AnnotationGraft

/-! ## Types in source code -/

/-- The source name of a type that is not an array. -/
def ElementType.sourceName : ElementType → List Char
  | base type => type.keyword.toList
  | object name => Descriptor.dotted name

/-- The source name of a type: brackets stand behind what the array holds. -/
def FieldType.sourceName (t : FieldType) : List Char :=
  t.element.sourceName ++ (List.replicate t.dimensions ['[', ']']).flatten

namespace MethodType

/-- The source name of a result. -/
def resultSourceName : Option FieldType → List Char
  | none => "void".toList
  | some t => t.sourceName

/-- The declaration of a method in source code. -/
def signature (t : MethodType) (name : String) : String :=
  String.ofList (resultSourceName t.result) ++ " " ++ name ++ "("
    ++ ", ".intercalate (t.parameters.map fun p => String.ofList p.sourceName) ++ ")"

/-- The parameters and the result as written. -/
def split (t : MethodType) : List (List Char) × List Char :=
  (t.parameters.map FieldType.text, resultText t.result)

theorem text_injective {t t' : MethodType} (h : t.isValid = true) (h' : t'.isValid = true)
    (htext : t.text = t'.text) : t = t' := by
  have hscan : scan? t'.text = some (t, []) :=
    scan?_eq_some_iff.2 ⟨h, by rw [htext, List.append_nil]⟩
  have hscan' : scan? t'.text = some (t', []) :=
    scan?_eq_some_iff.2 ⟨h', by rw [List.append_nil]⟩
  rw [hscan] at hscan'
  cases hscan'
  rfl

end MethodType

namespace Descriptor

/-- A list of field types and a result that a method descriptor is put together from. -/
structure IsSplitOf (split : List (List Char) × List Char) (d : List Char) : Prop where
  parameters : ∀ p ∈ split.1, isFieldType (String.ofList p) = true
  result : isResultType (String.ofList split.2) = true
  text : d = '(' :: split.1.flatten ++ ')' :: split.2

theorem isResultType_iff {d : String} : isResultType d = true ↔ IsResultText d.toList := by
  rw [isResultType, Bool.or_eq_true, beq_iff_eq, isFieldType, isFieldTypeText_iff, IsResultText,
    or_comm, ← String.toList_inj]
  rfl

/-- A descriptor has one split. -/
theorem isSplitOf_iff {t : MethodType} (h : t.isValid = true)
    {split : List (List Char) × List Char} : IsSplitOf split t.text ↔ split = t.split := by
  constructor
  · rintro ⟨hparameters, hresult, htext⟩
    have hfields : ∀ p ∈ split.1, IsFieldText p := fun p hp => by
      simpa [isFieldType, isFieldTypeText_iff] using hparameters p hp
    rw [isResultType_iff, String.toList_ofList] at hresult
    obtain ⟨parameters, hall, hps⟩ := exists_types_of_isFieldText hfields
    obtain ⟨result, hvalid, hr⟩ := isResultText_iff.1 hresult
    have hsame : t = ⟨parameters, result⟩ := by
      refine MethodType.text_injective h (MethodType.isValid_iff.2 ⟨hall, hvalid⟩) ?_
      rw [htext, ← hps, ← hr]
      rfl
    rw [hsame, MethodType.split, hps, hr]
  · rintro rfl
    rw [MethodType.isValid_iff] at h
    refine ⟨?_, ?_, rfl⟩
    · rw [MethodType.split, List.forall_mem_map]
      intro p hp
      rw [isFieldType, String.toList_ofList, isFieldTypeText_iff, isFieldText_iff]
      exact ⟨p, List.all_eq_true.1 h.1 p hp, rfl⟩
    · rw [isResultType_iff, String.toList_ofList, isResultText_iff]
      exact ⟨t.result, h.2, rfl⟩

/-! ## Where the parameters end -/

/-- Behind a closing parenthesis in a class name there is the semicolon that ends the name. -/
theorem semicolon_mem_of_text_eq {t : FieldType} {front back : List Char}
    (h : t.text = front ++ ')' :: back) : ';' ∈ back := by
  obtain ⟨dimensions, type | name⟩ := t
  · have hmem : ')' ∈ FieldType.text ⟨dimensions, .base type⟩ := by simp [h]
    rcases List.mem_append.1 hmem with hbracket | hletter
    · exact absurd (List.eq_of_mem_replicate hbracket) (by decide)
    · have hne : ')' ≠ type.letter := by cases type <;> decide
      exact absurd (List.mem_singleton.1 hletter) hne
  · have hlast := congrArg List.getLast? h
    rw [FieldType.text, ElementType.text, ← List.append_assoc, List.getLast?_concat,
      List.getLast?_append_cons] at hlast
    cases back with
    | nil => cases hlast
    | cons c back =>
      rw [List.getLast?_cons_cons] at hlast
      exact List.mem_of_getLast? hlast.symm

theorem semicolon_mem_of_flatMap_eq {ts : List FieldType} {front back : List Char}
    (h : ts.flatMap FieldType.text = front ++ ')' :: back) : ';' ∈ back := by
  induction ts generalizing front with
  | nil => simp at h
  | cons t ts ih =>
    rw [List.flatMap_cons] at h
    rcases List.append_eq_append_iff.1 h with ⟨middle, rfl, hts⟩ | ⟨middle, ht, hback⟩
    · exact ih hts
    · cases middle with
      | nil =>
        have hts : ts.flatMap FieldType.text = [] ++ ')' :: back := hback.symm
        exact ih hts
      | cons c middle =>
        obtain ⟨rfl, rfl⟩ := List.cons.inj hback
        exact List.mem_append_left _ (semicolon_mem_of_text_eq ht)

/-! ## Cutting the parameters apart -/

/-- A parameter of a base type ends with its letter. -/
theorem splitParameters_of_base {cs brackets tail : List Char} {c : Char} (hc : c ≠ 'L')
    (h : cs.takeWhile (· == '[') = brackets ∧ cs.dropWhile (· == '[') = c :: tail) :
    splitParameters cs = (brackets ++ [c]) :: splitParameters tail := by
  rw [splitParameters]
  split
  · next hnil =>
    rw [h.2] at hnil
    cases hnil
  · next d tail' hcons =>
    rw [h.2] at hcons
    cases hcons
    rw [if_neg hc, h.1]

/-- A parameter of a class ends with the semicolon behind the name. -/
theorem splitParameters_of_object {cs brackets name tail rest : List Char} {mark : Char}
    (h : cs.takeWhile (· == '[') = brackets ∧ cs.dropWhile (· == '[') = 'L' :: tail)
    (hname : tail.takeWhile (· != ';') = name ∧ tail.dropWhile (· != ';') = mark :: rest) :
    splitParameters cs = (brackets ++ 'L' :: name ++ [mark]) :: splitParameters rest := by
  rw [splitParameters]
  split
  · next hnil =>
    rw [h.2] at hnil
    cases hnil
  · next d tail' hcons =>
    rw [h.2] at hcons
    cases hcons
    rw [if_pos rfl]
    split
    · next hnil =>
      rw [hname.2] at hnil
      cases hnil
    · next e rest' hcons =>
      rw [hname.2] at hcons
      cases hcons
      rw [h.1, hname.1]

theorem splitParameters_text_append {t : FieldType} (h : t.isValid = true) (rest : List Char) :
    splitParameters (t.text ++ rest) = t.text :: splitParameters rest := by
  have hbrackets := t.takeWhile_dropWhile_text_append rest
  obtain ⟨dimensions, type | name⟩ := t
  · have hletter : type.letter ≠ 'L' := by cases type <;> decide
    rw [splitParameters_of_base hletter hbrackets]
    rfl
  · have hname : (ElementType.object name).isValid = true := (FieldType.isValid_iff.1 h).2
    have hend := ElementType.takeWhile_dropWhile_name hname rest
    rw [ElementType.text, List.append_assoc, List.cons_append, List.singleton_append] at hbrackets
    rw [splitParameters_of_object hbrackets hend, List.append_assoc]
    rfl

theorem splitParameters_flatMap_text {ts : List FieldType}
    (h : ts.all FieldType.isValid = true) :
    splitParameters (ts.flatMap FieldType.text) = ts.map FieldType.text := by
  induction ts with
  | nil => simp [splitParameters]
  | cons t ts ih =>
    rw [List.all_cons, Bool.and_eq_true] at h
    rw [List.flatMap_cons, splitParameters_text_append h.1, ih h.2, List.map_cons]

/-! ## The split that is found -/

/-- The first closing parenthesis ends the parameters, unless one of them has one in its name.  Then
what follows the first one has a semicolon before the one that ends the parameters. -/
theorem splitMethod_text_cases {t : MethodType} (h : t.isValid = true) :
    (')' ∉ t.parameters.flatMap FieldType.text ∧ splitMethod t.text = t.split)
      ∨ ')' ∈ t.parameters.flatMap FieldType.text ∧ ∃ front back, splitMethod t.text
          = (front, back ++ ')' :: MethodType.resultText t.result) ∧ ';' ∈ back := by
  rw [MethodType.isValid_iff] at h
  have hclose : (')' != ')') = false := by decide
  have hopen : ∀ {front : List Char}, ')' ∉ front → ∀ c ∈ '(' :: front, (c != ')') = true := by
    intro front hfront
    rw [List.forall_mem_cons]
    exact ⟨by decide, fun c hc => bne_iff_ne.2 (ne_of_mem_of_not_mem hc hfront)⟩
  by_cases hmem : ')' ∈ t.parameters.flatMap FieldType.text
  · right
    obtain ⟨front, back, hparameters, hfirst⟩ := List.eq_append_cons_of_mem hmem
    have htext : t.text
        = '(' :: front ++ ')' :: (back ++ ')' :: MethodType.resultText t.result) := by
      rw [MethodType.text, hparameters]
      simp
    obtain ⟨htake, hdrop⟩ := Text.takeWhile_dropWhile_iff.2 ⟨hopen hfirst, hclose, htext⟩
    refine ⟨hmem, splitParameters front, back, ?_, semicolon_mem_of_flatMap_eq hparameters⟩
    rw [splitMethod, hdrop, htake]
    rfl
  · left
    refine ⟨hmem, ?_⟩
    obtain ⟨htake, hdrop⟩ := Text.takeWhile_dropWhile_iff.2
      ⟨hopen hmem, hclose, (rfl : t.text = _)⟩
    rw [splitMethod, hdrop, htake]
    dsimp only
    rw [List.drop_one, List.tail_cons, splitParameters_flatMap_text h.1]
    rfl

/-! ## Source names -/

theorem elementSourceName_text (t : ElementType) : elementSourceName t.text = t.sourceName := by
  cases t with
  | base type => cases type <;> rfl
  | object name =>
    have hname : objectNameText? ('L' :: name ++ [';']) = some name :=
      objectNameText?_eq_some_iff.2 rfl
    rw [ElementType.text, elementSourceName, hname]
    · rfl
    · intro h
      simp at h
    · intro c h
      simp at h

theorem sourceNameText_text (t : FieldType) : sourceNameText t.text = t.sourceName := by
  obtain ⟨htake, hdrop⟩ := t.takeWhile_dropWhile_text_append []
  rw [List.append_nil] at htake hdrop
  rw [sourceNameText, htake, hdrop, List.append_nil, elementSourceName_text,
    List.flatMap_replicate]
  rfl

theorem sourceNameText_resultText (result : Option FieldType) :
    sourceNameText (MethodType.resultText result) = MethodType.resultSourceName result := by
  cases result with
  | none => rfl
  | some t => exact sourceNameText_text t

/-- Dots in place of slashes leave every other character as it is. -/
theorem mem_dotted_of_mem {c : Char} (hc : c ≠ '/') {cs : List Char} (h : c ∈ cs) :
    c ∈ dotted cs :=
  List.mem_map.2 ⟨c, h, if_neg hc⟩

theorem semicolon_not_mem_sourceName_element {t : ElementType} (h : t.isValid = true) :
    ';' ∉ t.sourceName := by
  cases t with
  | base type => cases type <;> decide
  | object name =>
    have hname : ';' ∉ name := (isPlainClassName_iff.1 h).not_mem (by decide)
    intro hmem
    obtain ⟨c, hc, hdot⟩ := List.mem_map.1 hmem
    split at hdot
    · exact absurd hdot (by decide)
    · exact hname (hdot ▸ hc)

theorem semicolon_not_mem_sourceName {t : FieldType} (h : t.isValid = true) :
    ';' ∉ t.sourceName := by
  have helement := (FieldType.isValid_iff.1 h).2
  rw [FieldType.sourceName, List.mem_append, not_or]
  refine ⟨semicolon_not_mem_sourceName_element helement, fun hmem => ?_⟩
  obtain ⟨brackets, hbrackets, hmem⟩ := List.mem_flatten.1 hmem
  rw [List.eq_of_mem_replicate hbrackets] at hmem
  exact absurd hmem (by decide)

/-- A semicolon that does not end the text is shown. -/
theorem semicolon_mem_elementSourceName {front back : List Char} (hfront : ';' ∈ front)
    (hback : back ≠ []) : ';' ∈ elementSourceName (front ++ back) := by
  have hlength : 1 < (front ++ back).length := by
    have h1 := List.length_pos_of_mem hfront
    have h2 := List.length_pos_iff.2 hback
    rw [List.length_append]
    omega
  unfold elementSourceName
  split
  · next h => simp [h] at hlength
  · next h => simp [h] at hlength
  · apply mem_dotted_of_mem (by decide)
    cases hname : objectNameText? (front ++ back) with
    | none => exact List.mem_append_left back hfront
    | some name =>
      -- The semicolon is not the last one, which ends the name.
      have hlast := congrArg List.dropLast (objectNameText?_eq_some_iff.1 hname)
      rw [List.dropLast_append_of_ne_nil hback, ← List.cons_append, List.dropLast_concat] at hlast
      have hmem : ';' ∈ 'L' :: name := hlast ▸ List.mem_append_left _ hfront
      simpa using hmem

theorem semicolon_mem_sourceNameText {front back : List Char} (hfront : ';' ∈ front)
    (hback : back ≠ []) : ';' ∈ sourceNameText (front ++ back) := by
  have hmem : ';' ∈ front.dropWhile (· == '[') := by
    rw [← List.takeWhile_append_dropWhile (p := (· == '[')) (l := front), List.mem_append] at hfront
    refine hfront.resolve_left fun hbracket => ?_
    exact absurd (List.mem_takeWhile_imp hbracket) (by decide)
  have hne : ¬ (front.dropWhile (· == '[')).isEmpty = true := by
    rw [List.isEmpty_iff]
    exact List.ne_nil_of_mem hmem
  rw [sourceNameText, List.dropWhile_append, if_neg hne]
  exact List.mem_append_left _ (semicolon_mem_elementSourceName hmem hback)

/-! ## Signatures -/

theorem not_mem_intercalate {c : Char} {sep : List Char} {pieces : List (List Char)}
    (hsep : c ∉ sep) (h : ∀ piece ∈ pieces, c ∉ piece) : c ∉ sep.intercalate pieces := by
  induction pieces with
  | nil => simp
  | cons piece rest ih =>
    rw [List.forall_mem_cons] at h
    cases rest with
    | nil => simpa using h.1
    | cons next rest =>
      have htail := ih h.2
      simp [h.1, hsep, htail]

/-- The types of a signature are shown without a semicolon. -/
theorem count_semicolon_signature {t : MethodType} (h : t.isValid = true) (name : String) :
    (t.signature name).toList.count ';' = name.toList.count ';' := by
  rw [MethodType.isValid_iff] at h
  have hresult : ';' ∉ MethodType.resultSourceName t.result := by
    cases hr : t.result with
    | none => decide
    | some r => exact semicolon_not_mem_sourceName (by simpa [hr] using h.2)
  have hparameters : ';' ∉ (", ".intercalate
      (t.parameters.map fun p => String.ofList p.sourceName)).toList := by
    rw [String.toList_intercalate]
    refine not_mem_intercalate (by decide) ?_
    rw [List.map_map, List.forall_mem_map]
    intro p hp
    rw [Function.comp_apply, String.toList_ofList]
    exact semicolon_not_mem_sourceName (List.all_eq_true.1 h.1 p hp)
  simp [MethodType.signature, List.count_append, List.count_eq_zero_of_not_mem hresult,
    List.count_eq_zero_of_not_mem hparameters, -String.toList_intercalate]

/-- A split that is found is shown. -/
theorem methodSignature_of_split {d : String} {t : MethodType}
    (h : splitMethod d.toList = t.split) (name : String) :
    methodSignature name d = t.signature name := by
  rw [methodSignature, h, MethodType.signature, MethodType.split]
  dsimp only
  rw [sourceNameText_resultText, List.map_map]
  simp only [Function.comp_def, sourceNameText_text]

theorem count_semicolon_le_methodSignature (name d : String) :
    (sourceNameText (splitMethod d.toList).2).count ';' + name.toList.count ';'
      ≤ (methodSignature name d).toList.count ';' := by
  simp [methodSignature, List.count_append]

theorem splitMethod_eq_iff {t : MethodType} (h : t.isValid = true) :
    splitMethod t.text = t.split ↔ ')' ∉ t.parameters.flatMap FieldType.text := by
  rcases splitMethod_text_cases h with ⟨hclosed, hsplit⟩ | ⟨hopen, front, back, hsplit, -⟩
  · exact iff_of_true hsplit hclosed
  · refine iff_of_false (fun hsame => ?_) (not_not_intro hopen)
    -- What is found for the result is longer than the result.
    have hresult : back ++ ')' :: MethodType.resultText t.result = MethodType.resultText t.result :=
      congrArg Prod.snd (hsplit.symm.trans hsame)
    have hlength := congrArg List.length hresult
    rw [List.length_append, List.length_cons] at hlength
    omega

theorem methodSignature_eq_iff {d : String} {t : MethodType} (h : t.isValid = true)
    (hd : d.toList = t.text) (name : String) :
    methodSignature name d = t.signature name ↔ ')' ∉ t.parameters.flatMap FieldType.text := by
  rcases splitMethod_text_cases h with ⟨hclosed, hsplit⟩ | ⟨hopen, front, back, hsplit, hback⟩
  · exact iff_of_true (methodSignature_of_split (hd ▸ hsplit) name) hclosed
  · refine iff_of_false (fun hsame => ?_) (not_not_intro hopen)
    have hshown : 0 < (sourceNameText (splitMethod d.toList).2).count ';' := by
      rw [hd, hsplit, List.count_pos_iff]
      exact semicolon_mem_sourceNameText hback (List.cons_ne_nil _ _)
    have hcount := count_semicolon_le_methodSignature name d
    rw [hsame, count_semicolon_signature h] at hcount
    omega

/-- A method descriptor is put together from one list of parameters and one result.  They are found,
and shown in the signature, exactly when no closing parenthesis stands in a parameter. -/
theorem splitMethod_denotes_iff {d : String} (h : isMethodType d = true) :
    ∃ t : MethodType, t.isValid = true ∧ t.text = d.toList
      ∧ (∀ split, IsSplitOf split d.toList ↔ split = t.split)
      ∧ (IsSplitOf (splitMethod d.toList) d.toList ↔
        ')' ∉ t.parameters.flatMap FieldType.text)
      ∧ ∀ name, methodSignature name d = t.signature name ↔
        ')' ∉ t.parameters.flatMap FieldType.text := by
  obtain ⟨t, hvalid, htext⟩ := isMethodText_iff.1 (isMethodType_iff.1 h)
  refine ⟨t, hvalid, htext, ?_, ?_, fun name => methodSignature_eq_iff hvalid htext.symm name⟩
  · rw [← htext]
    exact fun _ => isSplitOf_iff hvalid
  · rw [← htext, isSplitOf_iff hvalid]
    exact splitMethod_eq_iff hvalid

/-- A descriptor with an array of a class, and one with a class that has a closing parenthesis in
its name. -/
theorem splitMethod_array_and_parenthesis : isMethodType "(I[La/B;)V" = true
    ∧ IsSplitOf (splitMethod "(I[La/B;)V".toList) "(I[La/B;)V".toList
    ∧ isMethodType "(La)b;)V" = true
    ∧ IsSplitOf (["La)b;".toList], "V".toList) "(La)b;)V".toList
    ∧ ¬ IsSplitOf (splitMethod "(La)b;)V".toList) "(La)b;)V".toList := by
  have harray : isMethodType "(I[La/B;)V" = true := by decide +kernel
  have hname : isMethodType "(La)b;)V" = true := by decide +kernel
  have hsplitArray : IsSplitOf (["I".toList, "[La/B;".toList], "V".toList) "(I[La/B;)V".toList :=
    ⟨by decide +kernel, by decide, by decide⟩
  have hsplitName : IsSplitOf (["La)b;".toList], "V".toList) "(La)b;)V".toList :=
    ⟨by decide +kernel, by decide, by decide⟩
  obtain ⟨t, -, -, hone, hfound, -⟩ := splitMethod_denotes_iff harray
  obtain ⟨u, -, -, hone', hfound', -⟩ := splitMethod_denotes_iff hname
  have ht : ["I".toList, "[La/B;".toList] = t.parameters.map FieldType.text :=
    congrArg Prod.fst ((hone _).1 hsplitArray)
  have hu : ["La)b;".toList] = u.parameters.map FieldType.text :=
    congrArg Prod.fst ((hone' _).1 hsplitName)
  rw [List.flatMap, ← ht] at hfound
  rw [List.flatMap, ← hu] at hfound'
  exact ⟨harray, hfound.2 (by decide), hname, hsplitName, fun h => hfound'.1 h (by decide)⟩

/-- Not every method descriptor is split into the types that it is put together from. -/
theorem not_forall_isSplitOf_splitMethod :
    ¬ ∀ d : String, isMethodType d = true → IsSplitOf (splitMethod d.toList) d.toList := by
  intro h
  have hresult := (h "(La)b;)V" (by decide +kernel)).result
  exact absurd hresult (by decide +kernel)

end Descriptor

end AnnotationGraft
