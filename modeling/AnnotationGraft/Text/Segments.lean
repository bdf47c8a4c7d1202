/-!
# Segments of a text

`segments sep` cuts a text at every separator; `join sep` puts the pieces together again.  There is
always at least one piece, and no piece holds a separator.
-/

namespace AnnotationGraft.Text

/-- The pieces of a text between separators; neighbouring separators have an empty piece between
them. -/
def segments (sep : Char) (cs : List Char) : List (List Char) :=
  cs.foldr
    (fun c pieces =>
      if c = sep then [] :: pieces
      else match pieces with
        | piece :: rest => (c :: piece) :: rest
        | [] => [[c]])
    [[]]

/-- The pieces with a separator between each two. -/
def join (sep : Char) : List (List Char) → List Char
  | [] => []
  | [piece] => piece
  | piece :: rest => piece ++ sep :: join sep rest

@[simp] theorem segments_nil (sep : Char) : segments sep [] = [[]] := rfl

theorem segments_ne_nil (sep : Char) (cs : List Char) : segments sep cs ≠ [] := by
  cases cs with
  | nil => simp
  | cons c cs =>
    simp only [segments, List.foldr_cons]
    split
    · simp
    · split <;> simp

theorem segments_cons_sep (sep : Char) (cs : List Char) :
    segments sep (sep :: cs) = [] :: segments sep cs := by
  simp [segments]

theorem segments_cons_of_ne {sep c : Char} (h : c ≠ sep) (cs : List Char) :
    ∃ piece rest, segments sep cs = piece :: rest ∧
      segments sep (c :: cs) = (c :: piece) :: rest := by
  cases hs : segments sep cs with
  | nil => exact absurd hs (segments_ne_nil sep cs)
  | cons piece rest =>
    refine ⟨piece, rest, rfl, ?_⟩
    have hs' := hs
    simp only [segments] at hs'
    simp [segments, h, hs']

/-- Cutting loses nothing. -/
theorem join_segments (sep : Char) (cs : List Char) : join sep (segments sep cs) = cs := by
  induction cs with
  | nil => rfl
  | cons c cs ih =>
    by_cases h : c = sep
    · subst h
      rw [segments_cons_sep]
      cases hs : segments c cs with
      | nil => exact absurd hs (segments_ne_nil c cs)
      | cons piece rest => simpa [join, hs] using ih
    · obtain ⟨piece, rest, hs, hc⟩ := segments_cons_of_ne h cs
      rw [hc]
      rw [hs] at ih
      cases rest with
      | nil => simpa [join] using ih
      | cons next rest => simpa [join] using ih

/-- No piece holds a separator. -/
theorem not_mem_of_mem_segments {sep : Char} {cs piece : List Char}
    (h : piece ∈ segments sep cs) : sep ∉ piece := by
  induction cs generalizing piece with
  | nil => simp at h; simp [h]
  | cons c cs ih =>
    by_cases hc : c = sep
    · subst hc
      rw [segments_cons_sep] at h
      rcases List.mem_cons.1 h with rfl | h
      · simp
      · exact ih h
    · obtain ⟨first, rest, hs, hs'⟩ := segments_cons_of_ne hc cs
      rw [hs'] at h
      rcases List.mem_cons.1 h with rfl | h
      · have hfirst : sep ∉ first := ih (by simp [hs])
        simp [hfirst, Ne.symm hc]
      · exact ih (by simp [hs, h])

variable {sep : Char}

/-- A text without a separator is one piece. -/
theorem segments_of_not_mem {cs : List Char} (h : sep ∉ cs) : segments sep cs = [cs] := by
  induction cs with
  | nil => rfl
  | cons c cs ih =>
    rw [List.mem_cons, not_or] at h
    obtain ⟨piece, rest, hpieces, hcons⟩ := segments_cons_of_ne (Ne.symm h.1) cs
    rw [ih h.2] at hpieces
    obtain ⟨rfl, rfl⟩ : cs = piece ∧ [] = rest := by simpa using hpieces
    exact hcons

/-- What follows a text without a separator is added to the last piece. -/
theorem segments_append_of_not_mem (cs : List Char) {tail : List Char} (h : sep ∉ tail) :
    ∃ front last, segments sep cs = front ++ [last]
      ∧ segments sep (cs ++ tail) = front ++ [last ++ tail] := by
  induction cs with
  | nil => exact ⟨[], [], rfl, segments_of_not_mem h⟩
  | cons c cs ih =>
    obtain ⟨front, last, hcs, happend⟩ := ih
    by_cases hc : c = sep
    · subst hc
      refine ⟨[] :: front, last, ?_, ?_⟩
      · rw [segments_cons_sep, hcs, List.cons_append]
      · rw [List.cons_append, segments_cons_sep, happend, List.cons_append]
    · obtain ⟨piece, rest, hpieces, hcons⟩ := segments_cons_of_ne hc cs
      obtain ⟨piece', rest', hpieces', hcons'⟩ := segments_cons_of_ne hc (cs ++ tail)
      rw [hcs] at hpieces
      rw [happend] at hpieces'
      rw [List.cons_append, hcons, hcons']
      cases front with
      | nil =>
        obtain ⟨rfl, rfl⟩ : last = piece ∧ [] = rest := by simpa using hpieces
        obtain ⟨rfl, rfl⟩ : last ++ tail = piece' ∧ [] = rest' := by simpa using hpieces'
        exact ⟨[], c :: last, rfl, rfl⟩
      | cons first front =>
        obtain ⟨rfl, rfl⟩ : first = piece ∧ front ++ [last] = rest := by simpa using hpieces
        obtain ⟨rfl, rfl⟩ : first = piece' ∧ front ++ [last ++ tail] = rest' := by
          simpa using hpieces'
        exact ⟨(c :: first) :: front, last, rfl, rfl⟩

theorem segments_append_sep (cs ds : List Char) :
    segments sep (cs ++ sep :: ds) = segments sep cs ++ segments sep ds := by
  induction cs with
  | nil => rw [List.nil_append, segments_cons_sep, segments_nil, List.singleton_append]
  | cons c cs ih =>
    by_cases hc : c = sep
    · subst hc
      rw [List.cons_append, segments_cons_sep, segments_cons_sep, ih, List.cons_append]
    · obtain ⟨piece, rest, hpieces, hcons⟩ := segments_cons_of_ne hc cs
      obtain ⟨piece', rest', hpieces', hcons'⟩ := segments_cons_of_ne hc (cs ++ sep :: ds)
      rw [ih, hpieces, List.cons_append, List.cons.injEq] at hpieces'
      obtain ⟨rfl, rfl⟩ := hpieces'
      rw [List.cons_append, hcons, hcons', List.cons_append]

end AnnotationGraft.Text
