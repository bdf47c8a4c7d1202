import AnnotationGraft.Graft.Grouping
import AnnotationGraft.Proofs.Positions

/-!
# Groups

`groupByKey` takes items apart by their keys.  One step adds an item to the group with the number of
its key, or else starts a group (`Grouping.add_cases`).  `Grouping.IsInStep` is what the steps keep:
the numbers stay in step with the groups, whatever groups are started in between.  So a group holds
either all items of one key, in order, or one item without a key (`mem_groupByKey`).

The groups together hold every item once (`perm_flatten_groupByKey`), and they begin with items in
the order of the items (`beginsIn_grouped`).

For the positions of recipients this comes to a test that tells the positions of a group from the
others: `exists_of_mem_groupByRecipient`.
-/

namespace AnnotationGraft

variable {κ α : Type}

/-! ## One item more -/

namespace Grouping

/-- A group that takes an item takes it at its end, and the other groups stay as they are. -/
theorem exists_groups_extend (grouping : Grouping κ α) (number : Fin grouping.groups.length)
    (item : α) : ∃ front group back, grouping.groups = front ++ group :: back
      ∧ (grouping.extend number item).groups = front ++ (group ++ [item]) :: back := by
  refine ⟨grouping.groups.take number, grouping.groups[number],
    grouping.groups.drop (number + 1), ?_, ?_⟩
  · rw [Fin.getElem_fin, ← List.drop_eq_getElem_cons, List.take_append_drop]
  · rw [groups_extend, List.set_eq_take_append_cons_drop, if_pos number.isLt]

variable [DecidableEq κ] {grouping : Grouping κ α} {k : κ}

theorem number?_eq_some_iff {number : Fin grouping.groups.length} :
    grouping.number? k = some number ↔ grouping.numbers.lookup k = some number.val := by
  rw [number?, Option.pmap_eq_some_iff]
  constructor
  · intro h
    obtain ⟨n, hlt, hn, rfl⟩ := h
    exact hn
  · intro h
    exact ⟨number, number.isLt, h, rfl⟩

/-- An item goes to the group with the number of its key, or else it starts a group. -/
theorem add_cases (grouping : Grouping κ α) (key : Option κ) (item : α) :
    (∃ k number, key = some k ∧ grouping.numbers.lookup k = some number.val
        ∧ grouping.add (key, item) = grouping.extend number item)
      ∨ (∀ k, key = some k → grouping.numbers.lookup k = none)
        ∧ grouping.add (key, item) = grouping.start key item := by
  rw [add]
  cases hnumber : key.bind grouping.number? with
  | some number =>
    obtain ⟨k, hkey, hk⟩ := Option.bind_eq_some_iff.1 hnumber
    exact .inl ⟨k, number, hkey, number?_eq_some_iff.1 hk, rfl⟩
  | none =>
    refine .inr ⟨fun k hkey => ?_, rfl⟩
    rw [hkey, Option.bind_some, number?, Option.pmap_eq_none_iff] at hnumber
    exact hnumber

/-- One item more is held, whichever group takes it. -/
theorem perm_flatten_add (grouping : Grouping κ α) (item : Option κ × α) :
    (grouping.add item).groups.flatten.Perm (grouping.groups.flatten ++ [item.2]) := by
  obtain ⟨key, item⟩ := item
  rcases grouping.add_cases key item with ⟨_, number, _, _, hadd⟩ | ⟨_, hadd⟩
  · obtain ⟨front, group, back, hgroups, hextend⟩ := grouping.exists_groups_extend number item
    rw [hadd, hextend, hgroups]
    simp only [List.flatten_append, List.flatten_cons, List.append_assoc]
    exact (List.perm_append_comm.append_left group).append_left front.flatten
  · rw [hadd, groups_start, List.flatten_append, List.flatten_singleton]

end Grouping

variable [DecidableEq κ] {key : Option κ} {k : κ} {items : List (Option κ × α)}

/-! ## The items of a key -/

/-- The items of a key, in order. -/
def itemsOf (items : List (Option κ × α)) (key : Option κ) : List α :=
  (items.filter fun item => item.1 = key).map (·.2)

theorem itemsOf_concat (items : List (Option κ × α)) (item : Option κ × α) (key : Option κ) :
    itemsOf (items ++ [item]) key
      = itemsOf items key ++ if item.1 = key then [item.2] else [] := by
  rw [itemsOf, List.filter_append, List.map_append, List.filter_singleton]
  by_cases h : item.1 = key <;> simp [itemsOf, h]

theorem itemsOf_concat_self (items : List (Option κ × α)) (key : Option κ) (item : α) :
    itemsOf (items ++ [(key, item)]) key = itemsOf items key ++ [item] := by
  rw [itemsOf_concat, if_pos rfl]

theorem itemsOf_concat_of_ne {key' : Option κ} (h : key ≠ key') (items : List (Option κ × α))
    (item : α) : itemsOf (items ++ [(key, item)]) key' = itemsOf items key' := by
  rw [itemsOf_concat, if_neg h, List.append_nil]

/-! ## Numbers in step with groups -/

namespace Grouping

variable {grouping : Grouping κ α}

theorem lookup_start (grouping : Grouping κ α) (key : Option κ) (item : α) (k : κ) :
    (grouping.start key item).numbers.lookup k
      = if key = some k then some grouping.groups.length else grouping.numbers.lookup k := by
  cases key with
  | none => rfl
  | some k' =>
    rw [numbers_start, Option.map_some, Option.toList_some, List.singleton_append, List.lookup_cons]
    by_cases hk : k' = k
    · simp [hk]
    · rw [beq_eq_false_iff_ne.2 (Ne.symm hk), if_neg (hk ∘ Option.some.inj)]

/-- The numbers of keys are in step with the groups of the items that have come. -/
structure IsInStep (grouping : Grouping κ α) (items : List (Option κ × α)) : Prop where
  /-- The number of a key leads to its items. -/
  group_of_number : ∀ k n, grouping.numbers.lookup k = some n →
    grouping.groups[n]? = some (itemsOf items (some k))
  /-- A key without a number has not come. -/
  not_come : ∀ k, grouping.numbers.lookup k = none → itemsOf items (some k) = []
  /-- No two keys have the same number. -/
  injective : ∀ k k' n, grouping.numbers.lookup k = some n → grouping.numbers.lookup k' = some n →
    k = k'
  /-- A group without a number holds one item without a key. -/
  number_of_group : ∀ n group, grouping.groups[n]? = some group →
    (∃ k, grouping.numbers.lookup k = some n) ∨ ∃ item ∈ itemsOf items none, group = [item]

namespace IsInStep

theorem extend (h : grouping.IsInStep items) {number : Fin grouping.groups.length}
    (hk : grouping.numbers.lookup k = some number.val) (item : α) :
    (grouping.extend number item).IsInStep (items ++ [(some k, item)]) where
  group_of_number := by
    intro k' n hn
    have hold := h.group_of_number k' n hn
    rw [groups_extend, List.getElem?_set]
    by_cases hkk : k = k'
    · subst hkk
      obtain rfl := Option.some.inj (hk.symm.trans hn)
      rw [if_pos rfl, if_pos number.isLt, itemsOf_concat_self]
      rw [List.getElem?_eq_getElem number.isLt] at hold
      rw [← Option.some.inj hold, Fin.getElem_fin]
    · -- Another key has another number, so its group stays as it is.
      have hne : number.val ≠ n := fun heq => hkk (h.injective k k' n (heq ▸ hk) hn)
      rw [if_neg hne, hold, itemsOf_concat_of_ne (hkk ∘ Option.some.inj)]
  not_come := by
    intro k' hk'
    have hne : k ≠ k' := by
      rintro rfl
      exact nomatch hk.symm.trans hk'
    rw [itemsOf_concat_of_ne (hne ∘ Option.some.inj)]
    exact h.not_come k' hk'
  injective := h.injective
  number_of_group := by
    intro n group hgroup
    by_cases hn : number.val = n
    · exact .inl ⟨k, hn ▸ hk⟩
    · rw [groups_extend, List.getElem?_set, if_neg hn] at hgroup
      rw [numbers_extend, itemsOf_concat_of_ne (Option.some_ne_none k)]
      exact h.number_of_group n group hgroup

theorem start (h : grouping.IsInStep items)
    (hkey : ∀ k, key = some k → grouping.numbers.lookup k = none) (item : α) :
    (grouping.start key item).IsInStep (items ++ [(key, item)]) where
  group_of_number := by
    intro k n hn
    rw [lookup_start] at hn
    rw [groups_start]
    split at hn
    · next heq =>
      -- The key that comes has not come before, so the new group has all its items.
      obtain rfl := Option.some.inj hn
      rw [List.getElem?_concat_length, ← heq, itemsOf_concat_self, heq,
        h.not_come k (hkey k heq), List.nil_append]
    · next hne =>
      rw [List.getElem?_append_left (lt_length_of_lookup hn), itemsOf_concat_of_ne hne]
      exact h.group_of_number k n hn
  not_come := by
    intro k hk
    rw [lookup_start] at hk
    split at hk
    · cases hk
    · next hne =>
      rw [itemsOf_concat_of_ne hne]
      exact h.not_come k hk
  injective := by
    intro k k' n hk hk'
    rw [lookup_start] at hk hk'
    -- The new number is above all that were given out before.
    split at hk <;> split at hk'
    · next heq heq' => exact Option.some.inj (heq.symm.trans heq')
    · exact absurd (Option.some.inj hk) (Nat.ne_of_gt (lt_length_of_lookup hk'))
    · exact absurd (Option.some.inj hk') (Nat.ne_of_gt (lt_length_of_lookup hk))
    · exact h.injective k k' n hk hk'
  number_of_group := by
    intro n group hgroup
    rw [groups_start] at hgroup
    rcases Nat.lt_trichotomy n grouping.groups.length with hlt | rfl | hgt
    · rw [List.getElem?_append_left hlt] at hgroup
      rcases h.number_of_group n group hgroup with ⟨k, hk⟩ | ⟨item', hitem', rfl⟩
      · refine .inl ⟨k, ?_⟩
        rw [lookup_start, if_neg, hk]
        intro heq
        exact nomatch (hkey k heq).symm.trans hk
      · refine .inr ⟨item', ?_, rfl⟩
        rw [itemsOf_concat]
        exact List.mem_append_left _ hitem'
    · rw [List.getElem?_concat_length] at hgroup
      cases key with
      | some k => exact .inl ⟨k, by rw [lookup_start, if_pos rfl]⟩
      | none =>
        refine .inr ⟨item, ?_, (Option.some.inj hgroup).symm⟩
        rw [itemsOf_concat_self]
        exact List.mem_append_right _ List.mem_cons_self
    · rw [List.getElem?_eq_none] at hgroup
      · cases hgroup
      · rw [List.length_append, List.length_singleton]
        exact hgt

/-- A step keeps the numbers in step. -/
theorem add (h : grouping.IsInStep items) (item : Option κ × α) :
    (grouping.add item).IsInStep (items ++ [item]) := by
  obtain ⟨key, item⟩ := item
  rcases grouping.add_cases key item with ⟨k, number, rfl, hk, hadd⟩ | ⟨hkey, hadd⟩
  · rw [hadd]
    exact h.extend hk item
  · rw [hadd]
    exact h.start hkey item

end IsInStep

/-! ## What the groups begin with -/

/-- No group is empty, and the groups begin with some of the items, in order. -/
structure BeginsIn (grouping : Grouping κ α) (items : List α) : Prop where
  ne_nil : ∀ group ∈ grouping.groups, group ≠ []
  firsts : (grouping.groups.filterMap List.head?).Sublist items

/-- A step leaves what the groups begin with, but for the group that it may start. -/
theorem BeginsIn.add {items : List α} (h : grouping.BeginsIn items) (item : Option κ × α) :
    (grouping.add item).BeginsIn (items ++ [item.2]) := by
  obtain ⟨key, item⟩ := item
  rcases grouping.add_cases key item with ⟨_, number, _, _, hadd⟩ | ⟨_, hadd⟩
  · obtain ⟨front, group, back, hgroups, hextend⟩ := grouping.exists_groups_extend number item
    obtain ⟨hne, hfirsts⟩ := h
    rw [hgroups, List.forall_mem_append, List.forall_mem_cons] at hne
    obtain ⟨hfront, hgroup, hback⟩ := hne
    -- The group that takes the item is not empty, so it begins with what it began with.
    have hsame : (grouping.extend number item).groups.filterMap List.head?
        = grouping.groups.filterMap List.head? := by
      rw [hextend, hgroups]
      simp only [List.filterMap_append, List.filterMap_cons,
        List.head?_append_of_ne_nil _ hgroup]
    rw [hadd]
    constructor
    · rw [hextend, List.forall_mem_append, List.forall_mem_cons]
      exact ⟨hfront, List.append_ne_nil_of_left_ne_nil hgroup _, hback⟩
    · rw [hsame]
      exact List.sublist_append_of_sublist_left hfirsts
  · rw [hadd]
    constructor
    · rw [groups_start, List.forall_mem_append, List.forall_mem_singleton]
      exact ⟨h.ne_nil, List.cons_ne_nil _ _⟩
    · rw [groups_start, List.filterMap_append]
      exact h.firsts.append (List.Sublist.refl _)

end Grouping

/-! ## All items -/

/-- The groups of items. -/
def grouped (items : List (Option κ × α)) : Grouping κ α :=
  items.foldl Grouping.add Grouping.empty

theorem groupByKey_eq (items : List (Option κ × α)) :
    groupByKey items = (grouped items).groups := rfl

theorem grouped_concat (items : List (Option κ × α)) (item : Option κ × α) :
    grouped (items ++ [item]) = (grouped items).add item := by
  rw [grouped, List.foldl_append]
  rfl

theorem isInStep_grouped (items : List (Option κ × α)) : (grouped items).IsInStep items := by
  induction items using List.reverseRecOn with
  | nil => exact ⟨nofun, fun _ _ => rfl, nofun, nofun⟩
  | append_singleton items item ih =>
    rw [grouped_concat]
    exact ih.add item

theorem beginsIn_grouped (items : List (Option κ × α)) :
    (grouped items).BeginsIn (items.map (·.2)) := by
  induction items using List.reverseRecOn with
  | nil => exact ⟨nofun, List.Sublist.refl _⟩
  | append_singleton items item ih =>
    rw [grouped_concat, List.map_append, List.map_singleton]
    exact ih.add item

/-- A group holds the items of a key, or one item without a key. -/
theorem mem_groupByKey {group : List α} (h : group ∈ groupByKey items) :
    (∃ k, group = itemsOf items (some k)) ∨ ∃ item ∈ itemsOf items none, group = [item] := by
  have hstep := isInStep_grouped items
  obtain ⟨n, hn⟩ := List.mem_iff_getElem?.1 h
  refine (hstep.number_of_group n group hn).imp_left fun hnumber => ?_
  obtain ⟨k, hk⟩ := hnumber
  exact ⟨k, Option.some.inj (hn.symm.trans (hstep.group_of_number k n hk))⟩

/-- The groups hold every item once. -/
theorem perm_flatten_groupByKey (items : List (Option κ × α)) :
    (groupByKey items).flatten.Perm (items.map (·.2)) := by
  induction items using List.reverseRecOn with
  | nil => exact .refl _
  | append_singleton items item ih =>
    rw [groupByKey_eq, grouped_concat, List.map_append, List.map_singleton]
    exact ((grouped items).perm_flatten_add item).trans (ih.append_right _)

/-! ## Positions of recipients -/

variable {recipients : List (Option ClassName)} {group : List Nat}

theorem itemsOf_zipIdx (keys : List (Option κ)) (key : Option κ) :
    itemsOf keys.zipIdx key
      = (List.range keys.length).filter fun i => keys[i]? = some key := by
  rw [filter_range_eq, itemsOf]
  congr 1
  refine List.filter_congr fun item hitem => ?_
  rw [List.mem_zipIdx_iff_getElem?.1 hitem]
  simp

theorem mem_itemsOf_zipIdx_iff {keys : List (Option κ)} {i : Nat} :
    i ∈ itemsOf keys.zipIdx key ↔ keys[i]? = some key := by
  rw [itemsOf_zipIdx, List.mem_filter, List.mem_range, decide_eq_true_iff, and_iff_right_iff_imp]
  intro h
  exact (List.getElem?_eq_some_iff.1 h).1

/-- The groups hold every position once. -/
theorem perm_flatten_groupByRecipient (recipients : List (Option ClassName)) :
    (groupByRecipient recipients).flatten.Perm (List.range recipients.length) := by
  have hperm := perm_flatten_groupByKey recipients.zipIdx
  rwa [List.zipIdx_map_snd, ← List.range_eq_range'] at hperm

/-- The positions in a group have one recipient in common, if any, and no other position has it. -/
theorem exists_of_mem_groupByRecipient (h : group ∈ groupByRecipient recipients) :
    ∃ (target : Option ClassName) (keep : Nat → Bool),
      group = (List.range recipients.length).filter keep
        ∧ (∀ i, keep i = true → recipients[i]? = some target)
        ∧ ∀ i, keep i = false → ∀ name, target = some name → recipients[i]? ≠ some target := by
  rcases mem_groupByKey h with ⟨name, hgroup⟩ | ⟨i, hi, hgroup⟩
  · refine ⟨some name, fun i => recipients[i]? = some (some name), ?_, ?_, ?_⟩
    · rw [hgroup, itemsOf_zipIdx]
    · exact fun i hi => of_decide_eq_true hi
    · exact fun i hi _ _ => of_decide_eq_false hi
  · rw [itemsOf_zipIdx, List.mem_filter, List.mem_range] at hi
    refine ⟨none, fun j => j = i, ?_, ?_, nofun⟩
    · rw [hgroup, List.filter_eq, List.count_eq_one_of_mem List.nodup_range
        (List.mem_range.2 hi.1)]
      rfl
    · intro j hj
      rw [of_decide_eq_true hj]
      exact of_decide_eq_true hi.2

end AnnotationGraft
