import AnnotationGraft.Annotations.Set
import Mathlib.Data.List.Nodup
import Mathlib.Data.List.Perm.Basic

/-!
# Annotation sets as maps

Where every kind occurs once, a set is a map from kinds to annotations in which the order of the
entries does not matter: `get?_eq_of_perm`.  The entries are determined up to their order by those
of each retention (`perm_of_withRetention`), and with their order by the kinds in order and by what
the set holds under each of them (`eq_of_kinds_eq`).
-/

namespace AnnotationGraft.AnnotationSet

variable {s t : AnnotationSet} {a : AnnotationUse} {kind : String}

theorem contains_eq_true_iff : s.contains kind = true ↔ kind ∈ s.kinds := by
  simp [contains, get?, kinds, List.find?_isSome]

theorem get?_eq_none_iff : s.get? kind = none ↔ kind ∉ s.kinds := by
  simp [get?, kinds, List.find?_eq_none]

theorem mem_of_get? (h : s.get? kind = some a) : a ∈ s.entries := List.mem_of_find?_eq_some h

/-- Where every kind occurs once, a set holds its annotations under their kinds. -/
theorem get?_eq_some_iff (hs : s.kinds.Nodup) :
    s.get? kind = some a ↔ a ∈ s.entries ∧ a.kind = kind := by
  constructor
  · exact fun h => ⟨mem_of_get? h, kind_of_get? h⟩
  · intro h
    obtain ⟨ha, rfl⟩ := h
    cases hget : s.get? a.kind with
    | none => exact absurd (List.mem_map_of_mem ha) (get?_eq_none_iff.1 hget)
    | some b =>
      have hb := mem_of_get? hget
      rw [List.inj_on_of_nodup_map hs hb ha (kind_of_get? hget)]

theorem kinds_perm (h : s.entries.Perm t.entries) : s.kinds.Perm t.kinds := h.map _

/-- The order of the entries does not matter. -/
theorem get?_eq_of_perm (h : s.entries.Perm t.entries) (hs : s.kinds.Nodup) (kind : String) :
    s.get? kind = t.get? kind := by
  have ht : t.kinds.Nodup := (kinds_perm h).nodup_iff.1 hs
  apply Option.ext
  intro a
  rw [get?_eq_some_iff hs, get?_eq_some_iff ht, h.mem_iff]

/-- Sets with the same annotations of each retention have the same annotations. -/
theorem perm_of_withRetention (h : ∀ r, s.withRetention r = t.withRetention r) :
    s.entries.Perm t.entries := by
  have hcount : ∀ (u : AnnotationSet) (a : AnnotationUse),
      (u.withRetention a.retention).count a = u.entries.count a := fun u a =>
    List.count_filter (by simp)
  rw [List.perm_iff_count]
  intro a
  rw [← hcount s, ← hcount t, h]

/-- A set is given by its kinds in order and by what it holds under each of them. -/
theorem eq_of_kinds_eq (hs : s.kinds.Nodup) (hkinds : s.kinds = t.kinds)
    (hget : ∀ kind, s.get? kind = t.get? kind) : s = t := by
  have ht : t.kinds.Nodup := hkinds ▸ hs
  have hlen : s.entries.length = t.entries.length := by
    have hlength := congrArg List.length hkinds
    rwa [kinds, kinds, List.length_map, List.length_map] at hlength
  have hentries : s.entries = t.entries := by
    apply List.ext_getElem hlen
    intro i hi hi'
    have hkind : s.entries[i].kind = t.entries[i].kind := by
      have h : s.kinds[i]? = t.kinds[i]? := by rw [hkinds]
      simpa [kinds, hi, hi'] using h
    have hsget := (get?_eq_some_iff hs).2 ⟨List.getElem_mem hi, rfl⟩
    rw [hget, hkind, (get?_eq_some_iff ht).2 ⟨List.getElem_mem hi', rfl⟩] at hsget
    exact (Option.some.inj hsget).symm
  cases s
  cases t
  exact congrArg mk hentries

/-! ## Insertion -/

/-- Puts an annotation in the place of the first one of its kind, or at the end. -/
def place (a : AnnotationUse) : List AnnotationUse → List AnnotationUse
  | [] => [a]
  | e :: es => if e.kind = a.kind then a :: es else e :: place a es

theorem place_eq (a : AnnotationUse) (es : List AnnotationUse) :
    place a es = match es.findIdx? (fun e => e.kind == a.kind) with
      | some i => es.set i a
      | none => es ++ [a] := by
  induction es with
  | nil => rfl
  | cons e es ih =>
    rw [place, List.findIdx?_cons]
    by_cases h : e.kind = a.kind
    · simp [h]
    · simp only [if_neg h, ih, beq_iff_eq]
      cases es.findIdx? (fun e => e.kind == a.kind) <;> rfl

theorem insert_eq (s : AnnotationSet) (a : AnnotationUse) :
    s.insert a = ⟨place a.normalize s.entries⟩ := by
  rw [insert, getThenInsert?, place_eq, AnnotationUse.kind_normalize, ← position?]
  cases s.position? a.kind <;> rfl

theorem entries_insert (s : AnnotationSet) (a : AnnotationUse) :
    (s.insert a).entries = place a.normalize s.entries := congrArg entries (insert_eq s a)

theorem find?_place (a : AnnotationUse) (kind : String) (es : List AnnotationUse) :
    (place a es).find? (fun e => e.kind == kind) =
      if a.kind = kind then some a else es.find? (fun e => e.kind == kind) := by
  induction es with
  | nil => simp [place, List.find?]
  | cons e es ih =>
    by_cases h : e.kind = a.kind
    · by_cases hk : a.kind = kind
      · simp [place, h, hk]
      · simp [place, h, hk]
    · by_cases hk : a.kind = kind
      · subst hk
        simp [place, h, ih]
      · by_cases he : e.kind = kind
        · subst he
          simp [place, h, hk]
        · simp [place, h, he, hk, ih]

/-- After an insertion the set holds the normalized annotation under its kind, and what it held
under every other one. -/
theorem get?_insert (set : AnnotationSet) (a : AnnotationUse) (kind : String) :
    (set.insert a).get? kind = if a.kind = kind then some a.normalize else set.get? kind := by
  rw [get?, entries_insert, find?_place, AnnotationUse.kind_normalize, get?]

theorem place_of_not_mem {es : List AnnotationUse} (h : a.kind ∉ es.map (·.kind)) :
    place a es = es ++ [a] := by
  induction es with
  | nil => rfl
  | cons e es ih =>
    rw [List.map_cons, List.mem_cons, not_or] at h
    rw [place, if_neg fun heq => h.1 heq.symm, ih h.2, List.cons_append]

theorem map_kind_place_of_mem {es : List AnnotationUse} (h : a.kind ∈ es.map (·.kind)) :
    (place a es).map (·.kind) = es.map (·.kind) := by
  induction es with
  | nil => simp at h
  | cons e es ih =>
    by_cases heq : e.kind = a.kind
    · rw [place, if_pos heq, List.map_cons, List.map_cons, heq]
    · rw [List.map_cons, List.mem_cons] at h
      rw [place, if_neg heq, List.map_cons, List.map_cons,
        ih (h.resolve_left fun hae => heq hae.symm)]

/-- An annotation of a new kind is added at the end. -/
theorem entries_insert_of_not_mem (h : a.kind ∉ s.kinds) :
    (s.insert a).entries = s.entries ++ [a.normalize] := by
  rw [entries_insert]
  refine place_of_not_mem ?_
  rwa [AnnotationUse.kind_normalize]

theorem kinds_insert_of_not_mem (h : a.kind ∉ s.kinds) :
    (s.insert a).kinds = s.kinds ++ [a.kind] := by
  rw [kinds, entries_insert_of_not_mem h, List.map_append, kinds]
  simp

/-- An annotation of a kind that is there takes its place. -/
theorem kinds_insert_of_mem (h : a.kind ∈ s.kinds) : (s.insert a).kinds = s.kinds := by
  rw [kinds, entries_insert]
  refine map_kind_place_of_mem ?_
  rwa [AnnotationUse.kind_normalize]

theorem nodup_kinds_insert (hs : s.kinds.Nodup) (a : AnnotationUse) :
    (s.insert a).kinds.Nodup := by
  by_cases h : a.kind ∈ s.kinds
  · rwa [kinds_insert_of_mem h]
  · rw [kinds_insert_of_not_mem h, List.nodup_append_comm]
    exact List.nodup_cons.2 ⟨h, hs⟩

/-- What is in a set after an insertion was there before or is the annotation inserted. -/
theorem mem_entries_insert {b : AnnotationUse} (h : b ∈ (s.insert a).entries) :
    b = a.normalize ∨ b ∈ s.entries := by
  have hplace : ∀ es : List AnnotationUse, b ∈ place a.normalize es → b = a.normalize ∨ b ∈ es := by
    intro es
    induction es with
    | nil =>
      intro hb
      exact .inl (List.mem_singleton.1 hb)
    | cons e es ih =>
      intro hb
      rw [place] at hb
      split at hb
      · rcases List.mem_cons.1 hb with hb | hb
        · exact .inl hb
        · exact .inr (List.mem_cons_of_mem e hb)
      · rcases List.mem_cons.1 hb with hb | hb
        · exact .inr (hb ▸ List.mem_cons_self)
        · exact (ih hb).imp_right (List.mem_cons_of_mem e)
  rw [entries_insert] at h
  exact hplace s.entries h

/-! ## Removal -/

theorem entries_remove (s : AnnotationSet) (kind : String) :
    (s.remove kind).entries = s.entries.eraseP fun a => a.kind == kind := by
  rw [remove, getThenRemove?, List.eraseP_eq_eraseIdx, ← position?]
  cases s.position? kind <;> rfl

theorem kinds_remove (s : AnnotationSet) (kind : String) :
    (s.remove kind).kinds = s.kinds.erase kind := by
  rw [kinds, kinds, entries_remove, List.erase_eq_eraseP', List.eraseP_map]
  rfl

theorem nodup_kinds_remove (hs : s.kinds.Nodup) (kind : String) : (s.remove kind).kinds.Nodup := by
  rw [kinds_remove]
  exact hs.erase kind

/-- What is in a set after a removal was there before. -/
theorem mem_of_mem_entries_remove (h : a ∈ (s.remove kind).entries) : a ∈ s.entries := by
  rw [entries_remove] at h
  exact List.mem_of_mem_eraseP h

theorem remove_of_not_mem (h : kind ∉ s.kinds) : s.remove kind = s := by
  have hkeep : (s.remove kind).entries = s.entries := by
    rw [entries_remove]
    refine List.eraseP_of_forall_not fun a ha heq => h ?_
    rw [← eq_of_beq heq]
    exact List.mem_map_of_mem ha
  exact congrArg mk hkeep

theorem find?_eraseP_of_ne {other : String} (h : kind ≠ other) (es : List AnnotationUse) :
    (es.eraseP fun e => e.kind == kind).find? (fun e => e.kind == other) =
      es.find? fun e => e.kind == other := by
  induction es with
  | nil => rfl
  | cons e es ih =>
    rw [List.eraseP_cons, List.find?_cons]
    by_cases hkind : e.kind = kind
    · rw [beq_iff_eq.2 hkind, cond_true, beq_false_of_ne (hkind ▸ h)]
    · rw [beq_false_of_ne hkind, cond_false, List.find?_cons, ih]

/-- After a removal the set holds nothing under the kind, and what it held under every other one. -/
theorem get?_remove (hs : s.kinds.Nodup) (kind other : String) :
    (s.remove kind).get? other = if kind = other then none else s.get? other := by
  split
  · next heq =>
    rw [get?_eq_none_iff, kinds_remove, ← heq]
    exact hs.not_mem_erase
  · next hne =>
    rw [get?, entries_remove]
    exact find?_eraseP_of_ne hne s.entries

end AnnotationGraft.AnnotationSet
