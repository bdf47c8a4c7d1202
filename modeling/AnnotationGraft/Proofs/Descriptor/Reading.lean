import AnnotationGraft.Proofs.Descriptor.Grammar
import Mathlib.Data.List.TakeWhile

/-!
# Reading types

Each scanner of types reads exactly what `text` writes: it gives a type and a rest when the text is
that type as written, followed by that rest, and the type is valid (`FieldType.scan?_eq_some_iff`,
`MethodType.scan?_eq_some_iff`).  So the checks of descriptors accept the grammar and nothing else,
which is `Descriptor.recognizes_grammar`.
-/

namespace AnnotationGraft

/-- The longest front that passes a test is what stands before the first character that fails. -/
theorem Text.takeWhile_dropWhile_iff {p : Char → Bool} {cs front back : List Char} {c : Char} :
    cs.takeWhile p = front ∧ cs.dropWhile p = c :: back ↔
      (∀ d ∈ front, p d = true) ∧ p c = false ∧ cs = front ++ c :: back := by
  constructor
  · rintro ⟨rfl, hback⟩
    have hc := List.head?_dropWhile_not p cs
    rw [hback] at hc
    refine ⟨fun d hd => List.mem_takeWhile_imp hd, by simpa using hc, ?_⟩
    rw [← hback, List.takeWhile_append_dropWhile]
  · rintro ⟨hfront, hc, rfl⟩
    rw [List.takeWhile_append_of_pos hfront, List.dropWhile_append_of_pos hfront,
      List.takeWhile_cons_of_neg (by simp [hc]), List.dropWhile_cons_of_neg (by simp [hc]),
      List.append_nil]
    exact ⟨rfl, rfl⟩

/-! ## Field types -/

namespace ElementType

variable {cs rest : List Char} {t : ElementType}

/-- An element begins with a letter. -/
theorem exists_text_eq_cons (t : ElementType) :
    ∃ c tail, t.text = c :: tail ∧ c ∈ ['B', 'C', 'D', 'F', 'I', 'J', 'S', 'Z', 'L'] := by
  cases t with
  | base type => exact ⟨type.letter, [], rfl, by cases type <;> decide⟩
  | object name => exact ⟨'L', name ++ [';'], rfl, by decide⟩

/-- A valid name reaches to the first semicolon. -/
theorem takeWhile_dropWhile_name {name : List Char} (h : (object name).isValid = true)
    (rest : List Char) : (name ++ ';' :: rest).takeWhile (· != ';') = name
      ∧ (name ++ ';' :: rest).dropWhile (· != ';') = ';' :: rest := by
  have hsemicolon : ';' ∉ name := (Descriptor.isPlainClassName_iff.1 h).not_mem (by decide)
  exact Text.takeWhile_dropWhile_iff.2
    ⟨fun c hc => bne_iff_ne.2 (ne_of_mem_of_not_mem hc hsemicolon), by decide, rfl⟩

theorem scan?_eq_some_iff : scan? cs = some (t, rest) ↔ t.isValid = true ∧ cs = t.text ++ rest := by
  constructor
  · intro h
    cases cs with
    | nil => cases h
    | cons c tail =>
      rw [scan?] at h
      by_cases hc : c = 'L'
      · rw [if_pos hc] at h
        dsimp only at h
        split at h
        · next d tail' hend =>
          obtain ⟨-, hd, htail⟩ := Text.takeWhile_dropWhile_iff.1 ⟨rfl, hend⟩
          obtain rfl : d = ';' := by simpa using hd
          split at h
          · next hname =>
            cases h
            refine ⟨hname, ?_⟩
            conv_lhs => rw [hc, htail]
            simp [text]
          · cases h
        · cases h
      · rw [if_neg hc, Option.map_eq_some_iff] at h
        obtain ⟨type, hletter, hpair⟩ := h
        cases hpair
        exact ⟨rfl, by rw [← BaseType.letter_of_ofLetter? hletter]; rfl⟩
  · rintro ⟨hvalid, rfl⟩
    cases t with
    | base type =>
      have hletter : type.letter ≠ 'L' := by cases type <;> decide
      rw [text, List.singleton_append, scan?, if_neg hletter, BaseType.ofLetter?_letter]
      rfl
    | object name =>
      obtain ⟨htake, hdrop⟩ := takeWhile_dropWhile_name hvalid rest
      rw [text, List.append_assoc, List.cons_append, List.singleton_append, scan?, if_pos rfl,
        htake, hdrop]
      exact if_pos hvalid

end ElementType

namespace FieldType

variable {cs rest : List Char} {t : FieldType}

/-- A field type begins neither like the end of the parameters nor like a missing result. -/
theorem exists_text_eq_cons (t : FieldType) :
    ∃ c tail, t.text = c :: tail ∧ c ≠ ')' ∧ c ≠ 'V' := by
  obtain ⟨_ | dimensions, element⟩ := t
  · obtain ⟨c, tail, htext, hc⟩ := element.exists_text_eq_cons
    exact ⟨c, tail, htext, by rintro rfl; exact absurd hc (by decide),
      by rintro rfl; exact absurd hc (by decide)⟩
  · exact ⟨'[', _, rfl, by decide, by decide⟩

/-- The brackets of a field type end where its element begins. -/
theorem takeWhile_dropWhile_text_append (t : FieldType) (rest : List Char) :
    (t.text ++ rest).takeWhile (· == '[') = List.replicate t.dimensions '['
      ∧ (t.text ++ rest).dropWhile (· == '[') = t.element.text ++ rest := by
  obtain ⟨c, tail, htext, hc⟩ := t.element.exists_text_eq_cons
  have hbracket : c ≠ '[' := by
    rintro rfl
    exact absurd hc (by decide)
  rw [text, List.append_assoc, htext, List.cons_append]
  exact Text.takeWhile_dropWhile_iff.2
    ⟨fun d hd => beq_iff_eq.2 (List.eq_of_mem_replicate hd), beq_eq_false_iff_ne.2 hbracket, rfl⟩

theorem scan?_eq_some_iff : scan? cs = some (t, rest) ↔ t.isValid = true ∧ cs = t.text ++ rest := by
  rw [isValid_iff, scan?]
  constructor
  · intro h
    split at h
    · next hmost =>
      obtain ⟨⟨element, rest'⟩, hscan, hpair⟩ := Option.map_eq_some_iff.1 h
      cases hpair
      obtain ⟨hvalid, hdrop⟩ := ElementType.scan?_eq_some_iff.1 hscan
      have hbrackets : cs.takeWhile (· == '[')
          = List.replicate (cs.takeWhile (· == '[')).length '[' :=
        List.eq_replicate_of_mem fun c hc => by simpa using List.mem_takeWhile_imp hc
      refine ⟨⟨hmost, hvalid⟩, ?_⟩
      rw [text, List.append_assoc, ← hdrop, ← hbrackets, List.takeWhile_append_dropWhile]
    · cases h
  · rintro ⟨⟨hmost, hvalid⟩, rfl⟩
    obtain ⟨htake, hdrop⟩ := t.takeWhile_dropWhile_text_append rest
    rw [htake, hdrop, List.length_replicate, if_pos hmost,
      ElementType.scan?_eq_some_iff.2 ⟨hvalid, rfl⟩]
    rfl

end FieldType

/-! ## Method types -/

namespace MethodType

variable {cs rest : List Char}

theorem scanParametersOnto_eq_some_iff {done ts : List FieldType} :
    scanParametersOnto done cs = some (ts, rest) ↔
      ∃ read : List FieldType, ts = done.reverse ++ read ∧ read.all FieldType.isValid = true
        ∧ cs = read.flatMap FieldType.text ++ ')' :: rest := by
  constructor
  · intro h
    fun_induction scanParametersOnto done cs with
    | case1 => cases h
    | case2 done tail =>
      cases h
      exact ⟨[], (List.append_nil _).symm, rfl, rfl⟩
    | case3 done c tail hc t rest' hscan ih =>
      obtain ⟨hvalid, htext⟩ := FieldType.scan?_eq_some_iff.1 hscan
      obtain ⟨read, rfl, hall, rfl⟩ := ih h
      refine ⟨t :: read, by simp, by rw [List.all_cons, hvalid, hall]; rfl, ?_⟩
      rw [htext, List.flatMap_cons, List.append_assoc]
    | case4 => cases h
  · rintro ⟨read, rfl, hall, rfl⟩
    induction read generalizing done with
    | nil => simp [scanParametersOnto]
    | cons t read ih =>
      rw [List.all_cons, Bool.and_eq_true] at hall
      obtain ⟨c, tail, htext, hc, -⟩ := t.exists_text_eq_cons
      have hscan := FieldType.scan?_eq_some_iff.2
        ⟨hall.1, (rfl : t.text ++ (read.flatMap FieldType.text ++ ')' :: rest) = _)⟩
      rw [htext, List.cons_append] at hscan
      rw [List.flatMap_cons, List.append_assoc, htext, List.cons_append, scanParametersOnto,
        if_neg hc]
      split
      · next found hfound =>
        rw [hscan] at hfound
        cases hfound
        rw [ih hall.2, List.reverse_cons, List.append_assoc, List.singleton_append]
      · next hnone =>
        rw [hscan] at hnone
        cases hnone

theorem scanResult?_eq_some_iff {result : Option FieldType} :
    scanResult? cs = some (result, rest) ↔
      result.all FieldType.isValid = true ∧ cs = resultText result ++ rest := by
  unfold scanResult?
  split
  · next tail =>
    cases result with
    | none => simp [resultText, eq_comm]
    | some t =>
      obtain ⟨c, front, htext, -, hc⟩ := t.exists_text_eq_cons
      simp [resultText, htext, Ne.symm hc]
  · next hvoid =>
    rw [Option.map_eq_some_iff]
    cases result with
    | none =>
      refine ⟨?_, fun h => absurd h.2 (hvoid _)⟩
      rintro ⟨found, -, hpair⟩
      cases hpair
    | some t =>
      rw [Option.all_some, resultText, ← FieldType.scan?_eq_some_iff]
      constructor
      · rintro ⟨found, hscan, hpair⟩
        cases hpair
        exact hscan
      · exact fun h => ⟨_, h, rfl⟩

theorem scan?_eq_some_iff {t : MethodType} :
    scan? cs = some (t, rest) ↔ t.isValid = true ∧ cs = t.text ++ rest := by
  rw [isValid_iff, text]
  constructor
  · intro h
    unfold scan? at h
    split at h
    · next tail =>
      obtain ⟨⟨parameters, tail'⟩, hparameters, h⟩ := Option.bind_eq_some_iff.1 h
      obtain ⟨⟨result, rest'⟩, hresult, hpair⟩ := Option.map_eq_some_iff.1 h
      cases hpair
      obtain ⟨read, rfl, hall, rfl⟩ := scanParametersOnto_eq_some_iff.1 hparameters
      obtain ⟨hvalid, rfl⟩ := scanResult?_eq_some_iff.1 hresult
      exact ⟨⟨hall, hvalid⟩, by simp⟩
    · cases h
  · rintro ⟨⟨hall, hvalid⟩, rfl⟩
    have hparameters : scanParametersOnto [] (t.parameters.flatMap FieldType.text
        ++ ')' :: (resultText t.result ++ rest))
          = some (t.parameters, resultText t.result ++ rest) :=
      scanParametersOnto_eq_some_iff.2 ⟨t.parameters, rfl, hall, rfl⟩
    have hresult := scanResult?_eq_some_iff.2
      ⟨hvalid, (rfl : resultText t.result ++ rest = _)⟩
    rw [List.cons_append, List.cons_append, List.append_assoc, List.cons_append, scan?,
      hparameters, Option.bind_some]
    dsimp only
    rw [hresult]
    rfl

end MethodType

/-! ## Recognition -/

namespace Descriptor

theorem isFieldTypeText_iff {cs : List Char} : isFieldTypeText cs = true ↔ IsFieldText cs := by
  rw [isFieldText_iff]
  unfold isFieldTypeText
  split
  · next t hscan =>
    obtain ⟨hvalid, htext⟩ := FieldType.scan?_eq_some_iff.1 hscan
    exact ⟨fun _ => ⟨t, hvalid, by simpa using htext.symm⟩, fun _ => rfl⟩
  · next hnone =>
    refine ⟨nofun, ?_⟩
    rintro ⟨t, hvalid, rfl⟩
    exact absurd (FieldType.scan?_eq_some_iff.2 ⟨hvalid, (List.append_nil _).symm⟩) (hnone t)

theorem isMethodType_iff {d : String} : isMethodType d = true ↔ IsMethodText d.toList := by
  rw [isMethodText_iff]
  unfold isMethodType
  split
  · next t hscan =>
    obtain ⟨hvalid, htext⟩ := MethodType.scan?_eq_some_iff.1 hscan
    exact ⟨fun _ => ⟨t, hvalid, by simpa using htext.symm⟩, fun _ => rfl⟩
  · next hnone =>
    refine ⟨nofun, ?_⟩
    rintro ⟨t, hvalid, htext⟩
    exact absurd (MethodType.scan?_eq_some_iff.2 ⟨hvalid, by rw [htext, List.append_nil]⟩) (hnone t)

/-- The checks accept what the grammar says, and nothing else: of field types, of method types, of
object types, of results, and of names, where an array stands for its own name. -/
theorem recognizes_grammar (d : String) :
    (isFieldType d = true ↔ IsFieldText d.toList)
      ∧ (isMethodType d = true ↔ IsMethodText d.toList)
      ∧ (isObjectType d = true ↔ IsFieldText d.toList ∧ d.toList.head? = some 'L')
      ∧ (isResultType d = true ↔ IsFieldText d.toList ∨ d = "V")
      ∧ (isClassName d = true ↔
        IsName d.toList ∨ IsFieldText d.toList ∧ d.toList.head? = some '[') := by
  have hfield : isFieldType d = true ↔ IsFieldText d.toList := isFieldTypeText_iff
  refine ⟨hfield, isMethodType_iff, ?_, ?_, ?_⟩
  · unfold isObjectType
    split
    · next rest hd => simp [hd, hfield]
    · next hother =>
      cases hd : d.toList with
      | nil => simp
      | cons c rest =>
        have hc : c ≠ 'L' := by
          rintro rfl
          exact hother rest hd
        simp [hc]
  · rw [isResultType, Bool.or_eq_true, beq_iff_eq, hfield, or_comm]
  · unfold isClassName
    split
    · next rest hd =>
      have hname : ¬ IsName ('[' :: rest) := fun h =>
        h.not_mem (by decide : '[' ∈ ['.', ';', '[']) List.mem_cons_self
      simp [hfield, hd, hname]
    · next cs hother =>
      have harray : d.toList.head? ≠ some '[' := by
        intro h
        obtain ⟨rest, hd⟩ := List.head?_eq_some_iff.1 h
        exact hother rest hd
      simp [isPlainClassName_iff, harray]

end Descriptor

end AnnotationGraft
