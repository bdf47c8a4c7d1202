import AnnotationGraft.Proofs.Graft.Grouping
import Mathlib.Data.List.Nodup
import Mathlib.Data.List.Pairwise

/-!
# Groups as a partition

`IsGroupedBy` says what it is for groups of positions to take donors apart by their recipients, with
no mention of how the groups come about.  The groups that `groupByRecipient` gives are of this kind,
and no others are: `groupByRecipient_eq_iff`.

That there is one way only has two reasons.  A position lies in one group, so a group holds what
belongs together with any position in it (`IsGroupedBy.mem_iff`).  And the positions that groups
begin with are those that nothing before them belongs together with
(`IsGroupedBy.mem_firsts_iff`).
-/

namespace AnnotationGraft

variable {recipients : List (Option ClassName)} {groups groups' : List (List Nat)}
  {group group' : List Nat} {i j : Nat}

/-- The donors at two positions have a recipient, and it is the same one. -/
def ShareRecipient (recipients : List (Option ClassName)) (i j : Nat) : Prop :=
  ∃ name, recipients[i]? = some (some name) ∧ recipients[j]? = some (some name)

/-- Groups of positions take donors apart by their recipients. -/
structure IsGroupedBy (recipients : List (Option ClassName)) (groups : List (List Nat)) :
    Prop where
  ne_nil : ∀ group ∈ groups, group ≠ []
  /-- Together, the groups hold every position once. -/
  perm : groups.flatten.Perm (List.range recipients.length)
  /-- The positions in a group ascend. -/
  ascending : ∀ group ∈ groups, group.Pairwise (· < ·)
  /-- Two positions are in one group if they are the same or share a recipient, and only then. -/
  together_iff : ∀ i < recipients.length, ∀ j < recipients.length,
    (∃ group ∈ groups, i ∈ group ∧ j ∈ group) ↔ i = j ∨ ShareRecipient recipients i j
  /-- The groups are in the order of the positions that they begin with. -/
  firsts : (groups.filterMap List.head?).Pairwise (· < ·)

/-! ## The groups of recipients -/

theorem exists_mem_groupByRecipient (hi : i < recipients.length) :
    ∃ group ∈ groupByRecipient recipients, i ∈ group :=
  List.mem_flatten.1 ((perm_flatten_groupByRecipient recipients).mem_iff.2 (List.mem_range.2 hi))

theorem eq_or_share_of_mem_groupByRecipient (h : group ∈ groupByRecipient recipients)
    (hi : i ∈ group) (hj : j ∈ group) : i = j ∨ ShareRecipient recipients i j := by
  rcases mem_groupByKey h with ⟨name, rfl⟩ | ⟨_, _, rfl⟩
  · exact .inr ⟨name, mem_itemsOf_zipIdx_iff.1 hi, mem_itemsOf_zipIdx_iff.1 hj⟩
  · exact .inl ((List.mem_singleton.1 hi).trans (List.mem_singleton.1 hj).symm)

/-- A group with a position has all positions that share a recipient with it. -/
theorem mem_groupByRecipient_of_share (h : group ∈ groupByRecipient recipients) (hi : i ∈ group)
    (hshare : ShareRecipient recipients i j) : j ∈ group := by
  obtain ⟨name, hname, hname'⟩ := hshare
  rcases mem_groupByKey h with ⟨name', rfl⟩ | ⟨_, hnone, rfl⟩
  · rw [mem_itemsOf_zipIdx_iff, hname] at hi
    rw [mem_itemsOf_zipIdx_iff, hname', ← hi]
  · rw [mem_itemsOf_zipIdx_iff, ← List.mem_singleton.1 hi, hname] at hnone
    cases hnone

theorem together_groupByRecipient_iff (hi : i < recipients.length) :
    (∃ group ∈ groupByRecipient recipients, i ∈ group ∧ j ∈ group)
      ↔ i = j ∨ ShareRecipient recipients i j := by
  constructor
  · intro htogether
    obtain ⟨group, hgroup, hmem, hmem'⟩ := htogether
    exact eq_or_share_of_mem_groupByRecipient hgroup hmem hmem'
  · intro hbelong
    obtain ⟨group, hgroup, hmem⟩ := exists_mem_groupByRecipient hi
    refine ⟨group, hgroup, hmem, ?_⟩
    rcases hbelong with rfl | hshare
    · exact hmem
    · exact mem_groupByRecipient_of_share hgroup hmem hshare

theorem pairwise_of_mem_groupByRecipient (h : group ∈ groupByRecipient recipients) :
    group.Pairwise (· < ·) := by
  obtain ⟨_, keep, rfl, -, -⟩ := exists_of_mem_groupByRecipient h
  exact List.pairwise_lt_range.filter keep

theorem pairwise_firsts_groupByRecipient (recipients : List (Option ClassName)) :
    ((groupByRecipient recipients).filterMap List.head?).Pairwise (· < ·) := by
  have hfirsts := (beginsIn_grouped recipients.zipIdx).firsts
  rw [List.zipIdx_map_snd, ← List.range_eq_range'] at hfirsts
  exact List.pairwise_lt_range.sublist hfirsts

/-! ## One way only -/

namespace IsGroupedBy

theorem lt_length (h : IsGroupedBy recipients groups) (hgroup : group ∈ groups) (hi : i ∈ group) :
    i < recipients.length :=
  List.mem_range.1 (h.perm.mem_iff.1 (List.mem_flatten.2 ⟨group, hgroup, hi⟩))

/-- A position lies in one group. -/
theorem eq_of_mem (h : IsGroupedBy recipients groups) (hgroup : group ∈ groups)
    (hgroup' : group' ∈ groups) (hi : i ∈ group) (hi' : i ∈ group') : group = group' := by
  have hnodup : groups.flatten.Nodup := h.perm.nodup_iff.2 List.nodup_range
  have hsymm : Std.Symm (@List.Disjoint Nat) := ⟨fun _ _ => List.disjoint_symm⟩
  by_contra hne
  exact (List.nodup_flatten.1 hnodup).2.forall hgroup hgroup' hne hi hi'

/-- A group holds what belongs together with any position in it. -/
theorem mem_iff (h : IsGroupedBy recipients groups) (hgroup : group ∈ groups) (hi : i ∈ group) :
    j ∈ group ↔ j < recipients.length ∧ (i = j ∨ ShareRecipient recipients i j) := by
  have hlt := h.lt_length hgroup hi
  constructor
  · intro hj
    have hltj := h.lt_length hgroup hj
    exact ⟨hltj, (h.together_iff i hlt j hltj).1 ⟨group, hgroup, hi, hj⟩⟩
  · intro hj
    obtain ⟨hltj, htogether⟩ := hj
    obtain ⟨group', hgroup', hi', hj'⟩ := (h.together_iff i hlt j hltj).2 htogether
    rwa [h.eq_of_mem hgroup hgroup' hi hi']

/-- A group begins with a position that nothing before it belongs together with. -/
theorem mem_firsts_iff (h : IsGroupedBy recipients groups) :
    i ∈ groups.filterMap List.head?
      ↔ i < recipients.length ∧ ∀ j < i, ¬ ShareRecipient recipients i j := by
  rw [List.mem_filterMap]
  constructor
  · intro hfirst
    obtain ⟨group, hgroup, hhead⟩ := hfirst
    obtain ⟨rest, rfl⟩ := List.head?_eq_some_iff.1 hhead
    have hlt := h.lt_length hgroup List.mem_cons_self
    refine ⟨hlt, fun j hj hshare => ?_⟩
    have hmem := (h.mem_iff hgroup List.mem_cons_self).2 ⟨hj.trans hlt, .inr hshare⟩
    rcases List.mem_cons.1 hmem with rfl | hrest
    · exact Nat.lt_irrefl _ hj
    · exact Nat.lt_asymm hj (List.rel_of_pairwise_cons (h.ascending _ hgroup) hrest)
  · intro hi
    obtain ⟨hlt, hnone⟩ := hi
    obtain ⟨group, hgroup, hmem, -⟩ := (h.together_iff i hlt i hlt).2 (.inl rfl)
    obtain ⟨first, rest, rfl⟩ := List.exists_cons_of_ne_nil (h.ne_nil group hgroup)
    refine ⟨first :: rest, hgroup, ?_⟩
    rcases List.mem_cons.1 hmem with rfl | hrest
    · rfl
    · -- The first position would be one before it that belongs together with it.
      have hbefore := List.rel_of_pairwise_cons (h.ascending _ hgroup) hrest
      rcases ((h.mem_iff hgroup hmem).1 List.mem_cons_self).2 with rfl | hshare
      · rfl
      · exact absurd hshare (hnone first hbefore)

theorem map_head?_eq (h : IsGroupedBy recipients groups) :
    groups.map List.head? = (groups.filterMap List.head?).map some := by
  rw [List.map_filterMap, ← List.filterMap_eq_map]
  refine List.filterMap_congr fun group hgroup => ?_
  obtain ⟨first, rest, rfl⟩ := List.exists_cons_of_ne_nil (h.ne_nil group hgroup)
  rfl

theorem eq_of_head?_eq (h : IsGroupedBy recipients groups) (h' : IsGroupedBy recipients groups')
    (hgroup : group ∈ groups) (hgroup' : group' ∈ groups') (hhead : group.head? = group'.head?) :
    group = group' := by
  obtain ⟨first, rest, rfl⟩ := List.exists_cons_of_ne_nil (h.ne_nil group hgroup)
  obtain ⟨rest', rfl⟩ := List.head?_eq_some_iff.1 hhead.symm
  refine (h.ascending _ hgroup).eq_of_mem_iff (h'.ascending _ hgroup') fun j => ?_
  rw [h.mem_iff hgroup List.mem_cons_self, h'.mem_iff hgroup' List.mem_cons_self]

/-- There is one way to take donors apart by their recipients. -/
theorem unique (h : IsGroupedBy recipients groups) (h' : IsGroupedBy recipients groups') :
    groups = groups' := by
  have hfirsts : groups.filterMap List.head? = groups'.filterMap List.head? := by
    refine h.firsts.eq_of_mem_iff h'.firsts fun i => ?_
    rw [h.mem_firsts_iff, h'.mem_firsts_iff]
  have hheads : groups.map List.head? = groups'.map List.head? := by
    rw [h.map_head?_eq, h'.map_head?_eq, hfirsts]
  have hlength : groups.length = groups'.length := by
    simpa using congrArg List.length hheads
  refine List.ext_getElem hlength fun n hn hn' => ?_
  refine h.eq_of_head?_eq h' (List.getElem_mem hn) (List.getElem_mem hn') ?_
  have hhead := congrArg (·[n]?) hheads
  simpa [hn, hn'] using hhead

end IsGroupedBy

/-- Donors are taken apart by their recipients, and this in the one way there is. -/
theorem groupByRecipient_eq_iff :
    groupByRecipient recipients = groups ↔ IsGroupedBy recipients groups := by
  have hgrouped : IsGroupedBy recipients (groupByRecipient recipients) :=
    { ne_nil := (beginsIn_grouped recipients.zipIdx).ne_nil
      perm := perm_flatten_groupByRecipient recipients
      ascending := fun _ hgroup => pairwise_of_mem_groupByRecipient hgroup
      together_iff := fun _ hi _ _ => together_groupByRecipient_iff hi
      firsts := pairwise_firsts_groupByRecipient recipients }
  constructor
  · intro h
    exact h ▸ hgrouped
  · intro h
    exact hgrouped.unique h

/-- A recipient that comes again, with donors that have none before it and after it. -/
example : groupByRecipient [some ⟨"Foo"⟩, none, some ⟨"Bar"⟩, some ⟨"Foo"⟩, none]
    = [[0, 3], [1], [2], [4]] := by decide

end AnnotationGraft
