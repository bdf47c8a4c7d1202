import AnnotationGraft.Proofs.Graft.Merge

/-!
# What a merge makes of a set and says of it

`AnnotationSet.IsMergeOf` says what a merged set is in terms of the two sets alone: which kinds it
has in which order, and what it holds under each of them.  `FusionReport.AccountsFor` says the same
of a report: which of the donor's kinds it lists where.  Neither mentions the steps of a merge.

`AnnotationSet.isMergeOf_merge` is the result, for all normal sets; it adds that a second merge with
the same donor does nothing and says so.
-/

namespace AnnotationGraft

namespace AnnotationSet

variable {before donor set : AnnotationSet} {excluded : List String} {target : FusionTarget}

/-- The kinds of a donor that are copied, in its order. -/
def copiedKinds (donor : AnnotationSet) (excluded : List String) : List String :=
  donor.kinds.filter fun kind => kind ∉ excluded

theorem map_kind_copied (donor : AnnotationSet) (excluded : List String) :
    (donor.copied excluded).map (·.kind) = donor.copiedKinds excluded := by
  rw [copiedKinds, kinds, List.filter_map]
  rfl

/-- What a donor and a set make together. -/
structure IsMergeOf (merged before donor : AnnotationSet) (excluded : List String) : Prop where
  normal : merged.IsNormal
  /-- The kinds that were there keep their places, and new ones follow in the donor's order. -/
  kinds : merged.kinds
    = before.kinds ++ (donor.copiedKinds excluded).filter fun kind => kind ∉ before.kinds
  /-- The donor's annotation wins where it is copied. -/
  get? : ∀ kind, merged.get? kind =
    if kind ∈ donor.copiedKinds excluded then donor.get? kind else before.get? kind

end AnnotationSet

/-- A report lists each kind that is copied once, in the donor's order, with those that the set did
not have, or had with another annotation, or had with the same one. -/
structure FusionReport.AccountsFor (report : FusionReport) (before donor : AnnotationSet)
    (excluded : List String) (target : FusionTarget) : Prop where
  added : report.added =
    ((donor.copiedKinds excluded).filter fun kind => kind ∉ before.kinds).map (FusedKind.mk target)
  overwritten : report.overwritten =
    ((donor.copiedKinds excluded).filter fun kind =>
      kind ∈ before.kinds ∧ before.get? kind ≠ donor.get? kind).map (FusedKind.mk target)
  unchanged : report.unchanged =
    ((donor.copiedKinds excluded).filter fun kind =>
      kind ∈ before.kinds ∧ before.get? kind = donor.get? kind).map (FusedKind.mk target)
  perm : (report.added ++ report.overwritten ++ report.unchanged).Perm
    ((donor.copiedKinds excluded).map (FusedKind.mk target))
  nodup : (report.added ++ report.overwritten ++ report.unchanged).Nodup

namespace AnnotationSet

variable {before donor set : AnnotationSet} {excluded : List String} {target : FusionTarget}

/-! ## Effects of insertions -/

theorem insertEffect_eq_added_iff {a : AnnotationUse} :
    set.insertEffect a = .added ↔ a.kind ∉ set.kinds := by
  rw [← get?_eq_none_iff, insertEffect]
  cases set.get? a.kind with
  | none => simp
  | some old =>
    by_cases h : old = a <;> simp [h]

theorem insertEffect_eq_unchanged_iff {a : AnnotationUse} :
    set.insertEffect a = .unchanged ↔ set.get? a.kind = some a := by
  rw [insertEffect]
  cases set.get? a.kind with
  | none => simp
  | some old =>
    by_cases h : old = a <;> simp [h]

theorem insertEffect_eq_overwritten_iff {a : AnnotationUse} :
    set.insertEffect a = .overwritten ↔ a.kind ∈ set.kinds ∧ set.get? a.kind ≠ some a := by
  rw [ne_eq, ← insertEffect_eq_unchanged_iff, ← not_not (a := a.kind ∈ set.kinds),
    ← insertEffect_eq_added_iff]
  cases set.insertEffect a <;> simp

/-- The annotations of each effect together are all of them. -/
theorem perm_filter_effects (set : AnnotationSet) (as : List AnnotationUse) :
    ((as.filter fun a => set.insertEffect a = .added)
      ++ (as.filter fun a => set.insertEffect a = .overwritten)
      ++ as.filter fun a => set.insertEffect a = .unchanged).Perm as := by
  induction as with
  | nil => exact .nil
  | cons a as ih =>
    cases h : set.insertEffect a with
    | added => simpa [List.filter_cons, h] using ih.cons a
    | overwritten =>
      simp only [List.filter_cons, h, decide_true, if_true, reduceCtorEq, decide_false,
        Bool.false_eq_true, if_false, List.append_assoc, List.cons_append]
      rw [List.append_assoc] at ih
      exact List.perm_middle.trans (ih.cons a)
    | unchanged =>
      simp only [List.filter_cons, h, decide_true, if_true, reduceCtorEq, decide_false,
        Bool.false_eq_true, if_false]
      exact List.perm_middle.trans (ih.cons a)

/-- What is told of the copied annotations by their effect is told of the copied kinds by any test
that agrees with it. -/
theorem kindsWithEffect_copied {effect : InsertEffect} {test : String → Prop} [DecidablePred test]
    (h : ∀ a ∈ donor.entries, before.insertEffect a = effect ↔ test a.kind) :
    before.kindsWithEffect (donor.copied excluded) target effect =
      ((donor.copiedKinds excluded).filter fun kind => test kind).map (FusedKind.mk target) := by
  have hfilter : ((donor.copied excluded).filter fun a => before.insertEffect a = effect)
      = (donor.copied excluded).filter fun a => test a.kind :=
    List.filter_congr fun a ha => decide_eq_decide.2 (h a (mem_copied_iff.1 ha).1)
  rw [kindsWithEffect, hfilter, ← map_kind_copied, List.filter_map, List.map_map]
  rfl

/-! ## The report and the set -/

theorem accountsFor_merge (hdonor : donor.kinds.Nodup) (before : AnnotationSet)
    (excluded : List String) (target : FusionTarget) :
    (before.merge donor excluded target).2.AccountsFor before donor excluded target := by
  have hheld : ∀ a ∈ donor.entries, donor.get? a.kind = some a := fun a ha =>
    (get?_eq_some_iff hdonor).2 ⟨ha, rfl⟩
  have hperm : ((before.merge donor excluded target).2.added
      ++ (before.merge donor excluded target).2.overwritten
      ++ (before.merge donor excluded target).2.unchanged).Perm
        ((donor.copiedKinds excluded).map (FusedKind.mk target)) := by
    rw [merge_snd hdonor, ← map_kind_copied, List.map_map]
    simp only [kindsWithEffect, ← List.map_append]
    exact (perm_filter_effects before _).map _
  refine { added := ?_, overwritten := ?_, unchanged := ?_, perm := hperm, nodup := ?_ }
  · rw [merge_snd hdonor]
    exact kindsWithEffect_copied fun a _ => insertEffect_eq_added_iff
  · rw [merge_snd hdonor]
    refine kindsWithEffect_copied fun a ha => ?_
    rw [hheld a ha]
    exact insertEffect_eq_overwritten_iff
  · rw [merge_snd hdonor]
    refine kindsWithEffect_copied fun a ha => ?_
    rw [hheld a ha, insertEffect_eq_unchanged_iff]
    refine ⟨fun h => ⟨?_, h⟩, fun h => h.2⟩
    by_contra hnot
    rw [get?_eq_none_iff.2 hnot] at h
    cases h
  · rw [hperm.nodup_iff]
    exact (hdonor.filter _).map fun k l h => congrArg FusedKind.kind h

theorem mem_copiedKinds_iff {kind : String} :
    kind ∈ donor.copiedKinds excluded ↔ kind ∈ donor.kinds ∧ kind ∉ excluded := by
  rw [copiedKinds, List.mem_filter, decide_eq_true_eq]

/-- Under a kind that is copied a merged set holds what the donor holds. -/
theorem get?_merge_eq_ite (hdonor : donor.IsNormal) (before : AnnotationSet)
    (excluded : List String) (target : FusionTarget) (kind : String) :
    (before.merge donor excluded target).1.get? kind =
      if kind ∈ donor.copiedKinds excluded then donor.get? kind else before.get? kind := by
  rw [get?_merge excluded target hdonor]
  by_cases hcopied : kind ∈ donor.copiedKinds excluded
  · obtain ⟨hkind, hnot⟩ := mem_copiedKinds_iff.1 hcopied
    obtain ⟨a, ha, rfl⟩ := List.mem_map.1 hkind
    rw [if_neg hnot, if_pos hcopied, (get?_eq_some_iff hdonor.kinds_nodup).2 ⟨ha, rfl⟩,
      Option.some_or]
  · rw [if_neg hcopied]
    split
    · exact Option.none_or
    · next hnot =>
      have hkind : kind ∉ donor.kinds := fun h => hcopied (mem_copiedKinds_iff.2 ⟨h, hnot⟩)
      rw [get?_eq_none_iff.2 hkind, Option.none_or]

/-- Merging a donor into a set gives the set and the report that the two determine, and merging it
again changes nothing. -/
theorem isMergeOf_merge (hbefore : before.IsNormal) (hdonor : donor.IsNormal)
    (excluded : List String) (target : FusionTarget) :
    (before.merge donor excluded target).1.IsMergeOf before donor excluded
      ∧ (before.merge donor excluded target).2.AccountsFor before donor excluded target
      ∧ ∀ again,
          ((before.merge donor excluded target).1.merge donor excluded again).1
              = (before.merge donor excluded target).1
            ∧ ((before.merge donor excluded target).1.merge donor excluded again).2.isNoop
              = true := by
  have hget := get?_merge_eq_ite hdonor before excluded target
  have hnormal := hbefore.merge excluded target donor
  refine ⟨{ normal := hnormal, kinds := ?_, get? := hget },
    accountsFor_merge hdonor.kinds_nodup before excluded target, fun again => ?_⟩
  · rw [merge_fst, kinds_insertAll_of_nodup (nodup_kinds_copied hdonor.kinds_nodup excluded),
      map_kind_copied]
  · refine merge_eq_self hnormal.kinds_nodup hdonor (fun a ha => ?_) again
    have hcopied : a.kind ∈ donor.copiedKinds excluded := by
      rw [← map_kind_copied]
      exact List.mem_map_of_mem ha
    rw [hget, if_pos hcopied]
    exact (get?_eq_some_iff hdonor.kinds_nodup).2 ⟨(mem_copied_iff.1 ha).1, rfl⟩

/-- Three annotations, the first with one in it. -/
def threeKinds : AnnotationSet :=
  ⟨[⟨"LA;", .visible, [("v", .array [.nested ⟨"LN;", .visible, []⟩])]⟩, ⟨"LB;", .visible, []⟩,
    ⟨"LC;", .invisible, [("n", .int 1)]⟩]⟩

/-- A marker, an annotation of another retention, one that `threeKinds` has, and a new one. -/
def markedDonor : AnnotationSet :=
  ⟨[⟨"LF;", .invisible, []⟩, ⟨"LD;", .visible, []⟩,
    ⟨"LA;", .invisible, [("v", .array [.nested ⟨"LN;", .invisible, []⟩])]⟩, ⟨"LB;", .visible, []⟩]⟩

/-- The kinds of the merged set, the report with one kind of each sort, and the second merge. -/
theorem isMergeOf_threeKinds : threeKinds.IsNormal ∧ markedDonor.IsNormal
    ∧ (threeKinds.merge markedDonor ["LF;"] .wholeClass).1.kinds = ["LA;", "LB;", "LC;", "LD;"]
    ∧ (threeKinds.merge markedDonor ["LF;"] .wholeClass).2.added = [⟨.wholeClass, "LD;"⟩]
    ∧ (threeKinds.merge markedDonor ["LF;"] .wholeClass).2.overwritten = [⟨.wholeClass, "LA;"⟩]
    ∧ (threeKinds.merge markedDonor ["LF;"] .wholeClass).2.unchanged = [⟨.wholeClass, "LB;"⟩]
    ∧ ((threeKinds.merge markedDonor ["LF;"] .wholeClass).1.merge markedDonor ["LF;"]
        .wholeClass).2.isNoop = true := by
  have hbefore : threeKinds.IsNormal := by decide
  have hdonor : markedDonor.IsNormal := by decide
  obtain ⟨hmerged, hreport, hagain⟩ := isMergeOf_merge hbefore hdonor ["LF;"] .wholeClass
  exact ⟨hbefore, hdonor, hmerged.kinds.trans (by decide), hreport.added.trans (by decide),
    hreport.overwritten.trans (by decide), hreport.unchanged.trans (by decide),
    (hagain .wholeClass).2⟩

end AnnotationSet

end AnnotationGraft
