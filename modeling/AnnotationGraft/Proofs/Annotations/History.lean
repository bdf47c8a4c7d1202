import AnnotationGraft.Proofs.Annotations.Normal
import Mathlib.Data.List.Induction

/-!
# Annotation sets after a history of changes

A set is built by insertions and removals, in any order and any number.  After each of them it is
what an ordered map is (`IsOrderedMap`): an insertion replaces the annotation of its kind in its
place or else adds one at the end, a removal takes one out of its place, both give back the
annotation that leaves, and the look-ups agree with the entries in their order.

`isNormal_editAll` is the invariant of a history; `isOrderedMap_of_isNormal` derives the laws from
it.  What a history leaves of a kind is told by the last change of that kind alone
(`get?_editAll`).
-/

namespace AnnotationGraft

/-- A change of an annotation set. -/
inductive SetEdit where
  | insert (a : AnnotationUse)
  | remove (kind : String)

namespace SetEdit

/-- The kind that a change is about. -/
def kind : SetEdit → String
  | insert a => a.kind
  | remove kind => kind

/-- What a change leaves of its kind. -/
def inserted : SetEdit → Option AnnotationUse
  | insert a => some a
  | remove _ => none

/-- What a history leaves of a kind: the annotation that its last change of that kind inserts, if it
is an insertion. -/
def lastInserted (edits : List SetEdit) (kind : String) : Option AnnotationUse :=
  (edits.reverse.find? fun e => e.kind == kind).bind inserted

theorem lastInserted_concat (edits : List SetEdit) (e : SetEdit) (kind : String) :
    lastInserted (edits ++ [e]) kind =
      if e.kind = kind then e.inserted else lastInserted edits kind := by
  rw [lastInserted, List.reverse_append, List.reverse_singleton, List.singleton_append,
    List.find?_cons]
  by_cases h : e.kind = kind
  · simp only [beq_iff_eq.2 h, if_pos h, Option.bind_some]
  · simp only [beq_false_of_ne h, if_neg h, lastInserted]

end SetEdit

namespace AnnotationSet

/-- The set after a change. -/
def edit (set : AnnotationSet) : SetEdit → AnnotationSet
  | .insert a => set.insert a
  | .remove kind => set.remove kind

/-- The set after a history of changes. -/
def editAll (set : AnnotationSet) (edits : List SetEdit) : AnnotationSet := edits.foldl edit set

theorem editAll_concat (set : AnnotationSet) (edits : List SetEdit) (e : SetEdit) :
    set.editAll (edits ++ [e]) = (set.editAll edits).edit e := by
  rw [editAll, List.foldl_append]
  rfl

variable {s : AnnotationSet} {a : AnnotationUse} {kind : String}

/-! ## Places -/

theorem get?_eq_getElem? (s : AnnotationSet) (kind : String) :
    s.get? kind = (s.position? kind).bind fun i => s.entries[i]? := by
  rw [get?, position?]
  induction s.entries with
  | nil => rfl
  | cons e es ih =>
    rw [List.find?_cons, List.findIdx?_cons]
    by_cases h : e.kind = kind
    · simp only [beq_iff_eq.2 h, if_true, Option.bind_some, List.getElem?_cons_zero]
    · simp only [beq_false_of_ne h, Bool.false_eq_true, if_false, ih, Option.bind_map,
        Function.comp_def, List.getElem?_cons_succ]

/-- An insertion gives back what the set held under the kind. -/
theorem getThenInsert?_eq (s : AnnotationSet) (a : AnnotationUse) :
    s.getThenInsert? a = (s.get? a.kind, s.insert a) := by
  rw [insert, getThenInsert?, get?_eq_getElem?]
  cases s.position? a.kind <;> rfl

/-- A removal gives back what the set held under the kind. -/
theorem getThenRemove?_eq (s : AnnotationSet) (kind : String) :
    s.getThenRemove? kind = (s.get? kind, s.remove kind) := by
  rw [remove, getThenRemove?, get?_eq_getElem?]
  cases s.position? kind <;> rfl

section Present

variable {before after : List AnnotationUse} {old : AnnotationUse}

/-- Where every kind occurs once, no other entry has the kind of an entry. -/
theorem kind_ne_of_entries (hs : s.kinds.Nodup) (h : s.entries = before ++ old :: after) :
    ∀ e ∈ before, e.kind ≠ old.kind := by
  intro e he heq
  rw [kinds, h, List.map_append, List.map_cons, List.nodup_append] at hs
  exact hs.2.2 e.kind (List.mem_map_of_mem he) old.kind List.mem_cons_self heq

theorem place_append_cons (hbefore : ∀ e ∈ before, e.kind ≠ a.kind) (hold : old.kind = a.kind) :
    place a (before ++ old :: after) = before ++ a :: after := by
  induction before with
  | nil => rw [List.nil_append, place, if_pos hold, List.nil_append]
  | cons e before ih =>
    rw [List.forall_mem_cons] at hbefore
    rw [List.cons_append, place, if_neg hbefore.1, ih hbefore.2, List.cons_append]

/-- An annotation of a kind that is there takes the place of the one of that kind. -/
theorem entries_insert_of_entries (hs : s.kinds.Nodup) (h : s.entries = before ++ old :: after)
    (hold : old.kind = a.kind) : (s.insert a).entries = before ++ a.normalize :: after := by
  have hbefore := kind_ne_of_entries hs h
  rw [entries_insert, h]
  refine place_append_cons (fun e he => ?_) ?_
  · rw [AnnotationUse.kind_normalize, ← hold]
    exact hbefore e he
  · rw [AnnotationUse.kind_normalize, hold]

theorem entries_remove_of_entries (hs : s.kinds.Nodup) (h : s.entries = before ++ old :: after) :
    (s.remove old.kind).entries = before ++ after := by
  have hbefore := kind_ne_of_entries hs h
  have hkeep : ∀ e ∈ before, ¬(e.kind == old.kind) = true := by
    intro e he heq
    exact hbefore e he (eq_of_beq heq)
  rw [entries_remove, h, List.eraseP_append_right _ hkeep, List.eraseP_cons, beq_self_eq_true,
    cond_true]

theorem get?_of_entries (hs : s.kinds.Nodup) (h : s.entries = before ++ old :: after) :
    s.get? old.kind = some old := by
  refine (get?_eq_some_iff hs).2 ⟨?_, rfl⟩
  rw [h]
  exact List.mem_append_right before List.mem_cons_self

end Present

/-! ## Histories -/

theorem IsNormal.edit (hs : s.IsNormal) (e : SetEdit) : (s.edit e).IsNormal := by
  cases e with
  | insert a => exact hs.insert a
  | remove kind => exact hs.remove kind

theorem isNormal_editAll (edits : List SetEdit) : (empty.editAll edits).IsNormal := by
  induction edits using List.reverseRecOn with
  | nil => exact isNormal_empty
  | append_singleton edits e ih =>
    rw [editAll_concat]
    exact ih.edit e

/-- A change decides what the set holds under its kind, and nothing else. -/
theorem get?_edit (hs : s.kinds.Nodup) (e : SetEdit) (kind : String) :
    (s.edit e).get? kind =
      if e.kind = kind then e.inserted.map (·.normalize) else s.get? kind := by
  cases e with
  | insert a => exact get?_insert s a kind
  | remove removed => exact get?_remove hs removed kind

/-- Under a kind a set holds what its history leaves of it, in normal form. -/
theorem get?_editAll (edits : List SetEdit) (kind : String) :
    (empty.editAll edits).get? kind = (SetEdit.lastInserted edits kind).map (·.normalize) := by
  induction edits using List.reverseRecOn with
  | nil => rfl
  | append_singleton edits e ih =>
    rw [editAll_concat, get?_edit (isNormal_editAll edits).kinds_nodup, ih,
      SetEdit.lastInserted_concat]
    split <;> rfl

/-! ## The laws of an ordered map -/

/-- What an ordered map from kinds to annotations in normal form is. -/
structure IsOrderedMap (s : AnnotationSet) : Prop where
  normal : s.IsNormal
  /-- An annotation of a kind that is there takes the place of the old one, which is given back. -/
  insert_present : ∀ {before after : List AnnotationUse} {old a : AnnotationUse},
    s.entries = before ++ old :: after → old.kind = a.kind →
      ∃ new, a.HasNormalForm new ∧ s.getThenInsert? a = (some old, s.insert a)
        ∧ (s.insert a).entries = before ++ new :: after
  /-- An annotation of a new kind comes last. -/
  insert_absent : ∀ {a : AnnotationUse}, a.kind ∉ s.kinds →
    ∃ new, a.HasNormalForm new ∧ s.getThenInsert? a = (none, s.insert a)
      ∧ (s.insert a).entries = s.entries ++ [new]
  /-- An annotation that is taken out is given back, and the others stay in their order. -/
  remove_present : ∀ {before after : List AnnotationUse} {old : AnnotationUse},
    s.entries = before ++ old :: after →
      s.getThenRemove? old.kind = (some old, s.remove old.kind)
        ∧ (s.remove old.kind).entries = before ++ after
  remove_absent : ∀ {kind : String}, kind ∉ s.kinds →
    s.getThenRemove? kind = (none, s.remove kind) ∧ s.remove kind = s
  get? : ∀ {kind : String} {a : AnnotationUse},
    s.get? kind = some a ↔ a ∈ s.entries ∧ a.kind = kind
  contains : ∀ {kind : String}, s.contains kind = true ↔ kind ∈ s.kinds
  size : s.size = s.kinds.length
  /-- The annotations of a retention are taken from the entries in their order. -/
  withRetention_sublist : ∀ r, (s.withRetention r).Sublist s.entries
  withRetention_retention : ∀ r, ∀ a ∈ s.withRetention r, a.retention = r
  /-- Each entry is among the annotations of one of the two retentions, and once. -/
  withRetention_perm : (s.withRetention .visible ++ s.withRetention .invisible).Perm s.entries

theorem withRetention_append_perm (s : AnnotationSet) :
    (s.withRetention .visible ++ s.withRetention .invisible).Perm s.entries := by
  have hinvisible : s.withRetention .invisible
      = s.entries.filter fun a => !decide (a.retention = .visible) := by
    refine List.filter_congr fun a _ => ?_
    cases a.retention <;> rfl
  rw [hinvisible]
  exact List.filter_append_perm _ s.entries

theorem IsNormal.isOrderedMap (hs : s.IsNormal) : s.IsOrderedMap where
  normal := hs
  insert_present {before after old a} h hold := by
    refine ⟨a.normalize, a.hasNormalForm_normalize, ?_,
      entries_insert_of_entries hs.kinds_nodup h hold⟩
    rw [getThenInsert?_eq, ← hold, get?_of_entries hs.kinds_nodup h]
  insert_absent {a} h := by
    refine ⟨a.normalize, a.hasNormalForm_normalize, ?_, entries_insert_of_not_mem h⟩
    rw [getThenInsert?_eq, get?_eq_none_iff.2 h]
  remove_present {before after old} h := by
    refine ⟨?_, entries_remove_of_entries hs.kinds_nodup h⟩
    rw [getThenRemove?_eq, get?_of_entries hs.kinds_nodup h]
  remove_absent {kind} h := by
    refine ⟨?_, remove_of_not_mem h⟩
    rw [getThenRemove?_eq, get?_eq_none_iff.2 h]
  get? := get?_eq_some_iff hs.kinds_nodup
  contains := contains_eq_true_iff
  size := (List.length_map _).symm
  withRetention_sublist _ := List.filter_sublist
  withRetention_retention _ _ ha := of_decide_eq_true (List.mem_filter.1 ha).2
  withRetention_perm := withRetention_append_perm s

/-- After any history of insertions and removals a set is an ordered map, and under each kind it
holds the normal form of what the last change of that kind inserted, if that was an insertion. -/
theorem isOrderedMap_editAll (edits : List SetEdit) :
    (empty.editAll edits).IsOrderedMap
      ∧ ∀ kind, Option.Rel AnnotationUse.HasNormalForm (SetEdit.lastInserted edits kind)
          ((empty.editAll edits).get? kind) := by
  refine ⟨(isNormal_editAll edits).isOrderedMap, fun kind => ?_⟩
  rw [get?_editAll]
  cases SetEdit.lastInserted edits kind with
  | none => exact .none
  | some a => exact .some a.hasNormalForm_normalize

end AnnotationSet

end AnnotationGraft
