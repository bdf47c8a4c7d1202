import AnnotationGraft.Graft.Merge
import AnnotationGraft.Proofs.Annotations.Normal

/-!
# Merged sets

A merged set holds the donor's annotation of each kind that was copied, and under every other kind
what was there before (`get?_merge`).

The report is drawn up while the set is changed, but what inserting an annotation does is decided by
the set before the merge: no two annotations of a donor have one kind (`merge_snd`).  So merging
what a set already holds changes nothing and reports no change (`merge_eq_self`).
-/

namespace AnnotationGraft

theorem FusionReport.isNoop_iff {report : FusionReport} :
    report.isNoop = true ↔ report.added = [] ∧ report.overwritten = [] := by
  rw [isNoop, Bool.and_eq_true, List.isEmpty_iff, List.isEmpty_iff]

theorem FusionReport.isNoop_append {first second : FusionReport} (hfirst : first.isNoop = true)
    (hsecond : second.isNoop = true) : (first ++ second).isNoop = true := by
  rw [isNoop_iff] at hfirst hsecond ⊢
  show first.added ++ second.added = [] ∧ first.overwritten ++ second.overwritten = []
  rw [hfirst.1, hfirst.2]
  exact hsecond

namespace AnnotationSet

variable {set before donor : AnnotationSet} {as : List AnnotationUse} {kind : String}

/-! ## Insertion of several annotations -/

/-- The set with annotations inserted one after another. -/
def insertAll (set : AnnotationSet) (as : List AnnotationUse) : AnnotationSet :=
  as.foldl insert set

@[simp] theorem insertAll_cons (set : AnnotationSet) (a : AnnotationUse) (as : List AnnotationUse) :
    set.insertAll (a :: as) = (set.insert a).insertAll as := rfl

theorem insertAll_append (set : AnnotationSet) (as bs : List AnnotationUse) :
    set.insertAll (as ++ bs) = (set.insertAll as).insertAll bs := List.foldl_append

/-- The last annotation of a kind. -/
def lastOfKind (as : List AnnotationUse) (kind : String) : Option AnnotationUse :=
  as.reverse.find? fun a => a.kind == kind

theorem lastOfKind_append (as bs : List AnnotationUse) (kind : String) :
    lastOfKind (as ++ bs) kind = (lastOfKind bs kind).or (lastOfKind as kind) := by
  rw [lastOfKind, List.reverse_append, List.find?_append]
  rfl

theorem lastOfKind_singleton (a : AnnotationUse) (kind : String) :
    lastOfKind [a] kind = if a.kind = kind then some a else none := by
  rw [lastOfKind, List.reverse_singleton, List.find?_singleton]
  simp only [beq_iff_eq]

theorem mem_of_lastOfKind {a : AnnotationUse} (h : lastOfKind as kind = some a) :
    a ∈ as ∧ a.kind = kind := by
  rw [lastOfKind] at h
  exact ⟨List.mem_reverse.1 (List.mem_of_find?_eq_some h), by simpa using List.find?_some h⟩

theorem isSome_lastOfKind {a : AnnotationUse} (ha : a ∈ as) : (lastOfKind as a.kind).isSome := by
  rw [lastOfKind, List.find?_isSome]
  exact ⟨a, List.mem_reverse.2 ha, beq_self_eq_true a.kind⟩

/-- The last annotation of each kind is the one that stays. -/
theorem get?_insertAll (set : AnnotationSet) (hnormal : ∀ a ∈ as, a.normalize = a)
    (kind : String) : (set.insertAll as).get? kind = (lastOfKind as kind).or (set.get? kind) := by
  induction as generalizing set with
  | nil => rfl
  | cons a as ih =>
    have htail := ih (set.insert a) fun b hb => hnormal b (List.mem_cons_of_mem a hb)
    rw [insertAll_cons, htail, get?_insert, hnormal a List.mem_cons_self,
      ← List.singleton_append, lastOfKind_append, lastOfKind_singleton, Option.or_assoc]
    split <;> rfl

theorem kinds_insertAll (h : ∀ a ∈ as, a.kind ∈ set.kinds) :
    (set.insertAll as).kinds = set.kinds := by
  induction as generalizing set with
  | nil => rfl
  | cons a as ih =>
    have hkinds := kinds_insert_of_mem (h a List.mem_cons_self)
    rw [insertAll_cons, ih fun b hb => hkinds ▸ h b (List.mem_cons_of_mem a hb), hkinds]

/-- Annotations of distinct kinds are added at the end, less those of a kind that is there. -/
theorem kinds_insertAll_of_nodup (has : (as.map (·.kind)).Nodup) (set : AnnotationSet) :
    (set.insertAll as).kinds
      = set.kinds ++ (as.map (·.kind)).filter fun kind => kind ∉ set.kinds := by
  induction as generalizing set with
  | nil => exact (List.append_nil _).symm
  | cons a as ih =>
    obtain ⟨hfirst, has⟩ : a.kind ∉ as.map (·.kind) ∧ (as.map (·.kind)).Nodup :=
      List.nodup_cons.1 has
    rw [insertAll_cons, ih has, List.map_cons]
    by_cases h : a.kind ∈ set.kinds
    · rw [kinds_insert_of_mem h, List.filter_cons_of_neg (by simpa using h)]
    · have hrest : ∀ kind ∈ as.map (·.kind),
          decide (kind ∉ set.kinds ++ [a.kind]) = decide (kind ∉ set.kinds) := by
        intro kind hkind
        have hne : kind ≠ a.kind := fun heq => hfirst (heq ▸ hkind)
        simp [hne]
      rw [kinds_insert_of_not_mem h, List.filter_cons_of_pos (by simpa using h),
        List.filter_congr hrest, List.append_assoc, List.singleton_append]

theorem IsNormal.insertAll (hset : set.IsNormal) (as : List AnnotationUse) :
    (set.insertAll as).IsNormal := by
  induction as generalizing set with
  | nil => exact hset
  | cons a as ih => exact ih (hset.insert a)

theorem IsWellFormed.insertAll (hset : set.IsWellFormed)
    (has : ∀ a ∈ as, a.isWellFormed a.retention 0 = true) : (set.insertAll as).IsWellFormed := by
  induction as generalizing set with
  | nil => exact hset
  | cons a as ih =>
    exact ih (hset.insert (has a List.mem_cons_self)) fun b hb => has b (List.mem_cons_of_mem a hb)

/-! ## Merging -/

/-- What merging copies from a donor. -/
def copied (donor : AnnotationSet) (excluded : List String) : List AnnotationUse :=
  donor.entries.filter fun a => a.kind ∉ excluded

theorem fst_foldl_mergeStep (as : List AnnotationUse) (set : AnnotationSet)
    (effects : List (InsertEffect × String)) :
    (as.foldl mergeStep (set, effects)).1 = set.insertAll as := by
  induction as generalizing set effects with
  | nil => rfl
  | cons a as ih => exact ih (set.insert a) _

theorem merge_fst (before donor : AnnotationSet) (excluded : List String) (target : FusionTarget) :
    (before.merge donor excluded target).1 = before.insertAll (donor.copied excluded) :=
  fst_foldl_mergeStep _ _ _

theorem mem_copied_iff {excluded : List String} {a : AnnotationUse} :
    a ∈ donor.copied excluded ↔ a ∈ donor.entries ∧ a.kind ∉ excluded := by
  rw [copied, List.mem_filter, decide_eq_true_eq]

/-- Where every kind occurs once, the last annotation of a kind is the only one. -/
theorem lastOfKind_copied (hdonor : donor.kinds.Nodup) (excluded : List String) (kind : String) :
    lastOfKind (donor.copied excluded) kind =
      if kind ∈ excluded then none else donor.get? kind := by
  have hnodup : (⟨donor.copied excluded⟩ : AnnotationSet).kinds.Nodup :=
    hdonor.sublist (List.filter_sublist.map _)
  have hlast : lastOfKind (donor.copied excluded) kind
      = (⟨donor.copied excluded⟩ : AnnotationSet).get? kind :=
    (get?_eq_of_perm (List.reverse_perm _).symm hnodup kind).symm
  rw [hlast]
  apply Option.ext
  intro a
  rw [get?_eq_some_iff hnodup, mem_copied_iff]
  split
  · next hmem =>
    constructor
    · intro h
      exact absurd (h.2 ▸ hmem) h.1.2
    · exact nofun
  · next hnot =>
    rw [get?_eq_some_iff hdonor]
    constructor
    · exact fun h => ⟨h.1.1, h.2⟩
    · exact fun h => ⟨⟨h.1, h.2 ▸ hnot⟩, h.2⟩

/-- What is copied from a well-formed set is the last of its kind. -/
theorem lastOfKind_of_mem_copied (hdonor : donor.kinds.Nodup) {excluded : List String}
    {a : AnnotationUse} (ha : a ∈ donor.copied excluded) :
    lastOfKind (donor.copied excluded) a.kind = some a := by
  obtain ⟨hmem, hkind⟩ := mem_copied_iff.1 ha
  rw [lastOfKind_copied hdonor, if_neg hkind]
  exact (get?_eq_some_iff hdonor).2 ⟨hmem, rfl⟩

theorem nodup_kinds_copied (hdonor : donor.kinds.Nodup) (excluded : List String) :
    ((donor.copied excluded).map (·.kind)).Nodup := hdonor.sublist (List.filter_sublist.map _)

section Donor

variable (excluded : List String) (target : FusionTarget)

theorem IsNormal.normalize_of_mem_copied (hdonor : donor.IsNormal) {a : AnnotationUse}
    (ha : a ∈ donor.copied excluded) : a.normalize = a :=
  hdonor.normalize (mem_copied_iff.1 ha).1

/-- A merged set holds what was copied, and otherwise what was there before. -/
theorem get?_merge (hdonor : donor.IsNormal) (before : AnnotationSet) (kind : String) :
    (before.merge donor excluded target).1.get? kind =
      (if kind ∈ excluded then none else donor.get? kind).or (before.get? kind) := by
  rw [merge_fst, get?_insertAll before fun a ha => hdonor.normalize_of_mem_copied excluded ha,
    lastOfKind_copied hdonor.kinds_nodup]

/-- Whatever is merged into a normal set, it stays one. -/
theorem IsNormal.merge (hbefore : before.IsNormal) (donor : AnnotationSet) :
    (before.merge donor excluded target).1.IsNormal := by
  rw [merge_fst]
  exact hbefore.insertAll _

theorem IsWellFormed.isWellFormed_of_mem_copied (hdonor : donor.IsWellFormed) {a : AnnotationUse}
    (ha : a ∈ donor.copied excluded) : a.isWellFormed a.retention 0 = true :=
  hdonor.entries a (mem_copied_iff.1 ha).1

theorem IsWellFormed.merge (hbefore : before.IsWellFormed) (hdonor : donor.IsWellFormed) :
    (before.merge donor excluded target).1.IsWellFormed := by
  rw [merge_fst]
  exact hbefore.insertAll fun a ha => hdonor.isWellFormed_of_mem_copied excluded ha

end Donor

/-! ## The report -/

theorem insertEffect_insert_of_ne {a b : AnnotationUse} (h : a.kind ≠ b.kind) :
    (set.insert a).insertEffect b = set.insertEffect b := by
  rw [insertEffect, get?_insert, if_neg h, insertEffect]

/-- Insertions of distinct kinds do not get in each other's way. -/
theorem snd_foldl_mergeStep (has : (as.map (·.kind)).Nodup) (set : AnnotationSet)
    (effects : List (InsertEffect × String)) :
    (as.foldl mergeStep (set, effects)).2
      = (as.map fun a => (set.insertEffect a, a.kind)).reverse ++ effects := by
  induction as generalizing set effects with
  | nil => rfl
  | cons a as ih =>
    obtain ⟨hfirst, has⟩ : a.kind ∉ as.map (·.kind) ∧ (as.map (·.kind)).Nodup :=
      List.nodup_cons.1 has
    have heffect : ∀ b ∈ as,
        ((set.insert a).insertEffect b, b.kind) = (set.insertEffect b, b.kind) := by
      intro b hb
      have hne : a.kind ≠ b.kind := fun heq => hfirst (heq ▸ List.mem_map_of_mem hb)
      rw [insertEffect_insert_of_ne hne]
    rw [List.foldl_cons, mergeStep, ih has, List.map_congr_left heffect]
    simp

/-- The kinds of the annotations whose insertion into a set has an effect, on a target. -/
def kindsWithEffect (set : AnnotationSet) (as : List AnnotationUse) (target : FusionTarget)
    (effect : InsertEffect) : List FusedKind :=
  (as.filter fun a => set.insertEffect a = effect).map fun a => ⟨target, a.kind⟩

/-- The report of a merge says of each copied annotation what inserting it into the set before the
merge would do. -/
theorem merge_snd (hdonor : donor.kinds.Nodup) (before : AnnotationSet) (excluded : List String)
    (target : FusionTarget) :
    (before.merge donor excluded target).2 =
      { added := before.kindsWithEffect (donor.copied excluded) target .added
        overwritten := before.kindsWithEffect (donor.copied excluded) target .overwritten
        unchanged := before.kindsWithEffect (donor.copied excluded) target .unchanged } := by
  have heffects := snd_foldl_mergeStep (nodup_kinds_copied hdonor excluded) before []
  have hwith : ∀ effect, withEffect ((donor.copied excluded).map fun a =>
      (before.insertEffect a, a.kind)) effect target
        = before.kindsWithEffect (donor.copied excluded) target effect := by
    intro effect
    rw [withEffect, List.filter_map, List.map_map]
    rfl
  rw [copied] at heffects hwith
  unfold merge
  simp only [heffects, List.append_nil, List.reverse_reverse, hwith, copied]

/-! ## Merging again -/

/-- Inserting annotations changes nothing if the last of each kind is there. -/
theorem insertAll_eq_self (hset : set.kinds.Nodup) (hnormal : ∀ a ∈ as, a.normalize = a)
    (h : ∀ kind a, lastOfKind as kind = some a → set.get? kind = some a) :
    set.insertAll as = set := by
  have hkinds : (set.insertAll as).kinds = set.kinds := by
    refine kinds_insertAll fun a ha => ?_
    obtain ⟨b, hb⟩ := Option.isSome_iff_exists.1 (isSome_lastOfKind ha)
    by_contra hnot
    rw [← get?_eq_none_iff, h a.kind b hb] at hnot
    cases hnot
  refine eq_of_kinds_eq (hkinds ▸ hset) hkinds fun kind => ?_
  rw [get?_insertAll set hnormal]
  cases hlast : lastOfKind as kind with
  | none => rfl
  | some a => exact (h kind a hlast).symm

theorem insertEffect_of_get? {a : AnnotationUse} (h : set.get? a.kind = some a) :
    set.insertEffect a = .unchanged := by
  simp only [insertEffect, h, if_true]

/-- Merging what is there changes nothing, and the report says so. -/
theorem merge_eq_self (hset : set.kinds.Nodup) (hdonor : donor.IsNormal)
    {excluded : List String} (hheld : ∀ a ∈ donor.copied excluded, set.get? a.kind = some a)
    (target : FusionTarget) :
    (set.merge donor excluded target).1 = set
      ∧ (set.merge donor excluded target).2.isNoop = true := by
  have hnone : ∀ effect : InsertEffect, effect ≠ .unchanged →
      set.kindsWithEffect (donor.copied excluded) target effect = [] := by
    intro effect heffect
    rw [kindsWithEffect, List.map_eq_nil_iff, List.filter_eq_nil_iff]
    intro a ha heq
    rw [insertEffect_of_get? (hheld a ha), decide_eq_true_eq] at heq
    exact heffect heq.symm
  constructor
  · rw [merge_fst]
    refine insertAll_eq_self hset (fun a ha => hdonor.normalize_of_mem_copied excluded ha)
      fun kind a ha => ?_
    obtain ⟨hmem, rfl⟩ := mem_of_lastOfKind ha
    exact hheld a hmem
  · rw [merge_snd hdonor.kinds_nodup, FusionReport.isNoop_iff]
    exact ⟨hnone .added nofun, hnone .overwritten nofun⟩

end AnnotationSet

end AnnotationGraft
