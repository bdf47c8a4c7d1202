import Mathlib.Data.List.Induction
import Mathlib.Data.List.Sort
import Mathlib.Data.Nat.Count

/-!
# Positions in lists

`keepAt` keeps the items at some of the positions of a list, and `getElem?_keepAt` says where an
item that is kept stands then.  `lastSome` is what the last item gives that gives something.

`numbered` puts its position beside each item.  Numbered items in any order are sorted back into the
list that they come from: `inOrder_of_perm`.
-/

namespace AnnotationGraft

variable {α β : Type} {keep : Nat → Bool}

/-! ## Some of the positions -/

/-- The items at the positions that are kept. -/
def keepAt (keep : Nat → Bool) (items : List α) : List α :=
  (items.zipIdx.filter fun item => keep item.2).map (·.1)

theorem keepAt_concat (items : List α) (item : α) :
    keepAt keep (items ++ [item])
      = keepAt keep items ++ if keep items.length then [item] else [] := by
  rw [keepAt, List.zipIdx_append, List.filter_append, List.map_append, Nat.zero_add,
    List.zipIdx_singleton, List.filter_singleton]
  cases keep items.length <;> rfl

theorem length_keepAt (keep : Nat → Bool) (items : List α) :
    (keepAt keep items).length = Nat.count (fun i => keep i = true) items.length := by
  induction items using List.reverseRecOn with
  | nil => rfl
  | append_singleton items item ih =>
    rw [keepAt_concat, List.length_append, ih, List.length_append, List.length_singleton,
      Nat.count_succ]
    split <;> rfl

/-- A kept item moves to the front by the number of items before it that are not kept. -/
theorem getElem?_keepAt {i : Nat} (hi : keep i = true) (items : List α) :
    (keepAt keep items)[Nat.count (fun j => keep j = true) i]? = items[i]? := by
  induction items using List.reverseRecOn with
  | nil => rfl
  | append_singleton items item ih =>
    have hlength := length_keepAt keep items
    rcases Nat.lt_trichotomy i items.length with hlt | rfl | hgt
    · have hcount : Nat.count (fun j => keep j = true) i
          < Nat.count (fun j => keep j = true) items.length := Nat.count_strict_mono hi hlt
      rw [keepAt_concat, List.getElem?_append_left (hlength ▸ hcount), ih,
        List.getElem?_append_left hlt]
    · rw [keepAt_concat, if_pos hi, ← hlength, List.getElem?_concat_length,
        List.getElem?_concat_length]
    · have hcount := Nat.count_monotone (fun j => keep j = true) (Nat.succ_le_of_lt hgt)
      have hnew := length_keepAt keep (items ++ [item])
      rw [List.length_append, List.length_singleton] at hnew
      rw [List.getElem?_eq_none (hnew ▸ hcount), List.getElem?_eq_none]
      rw [List.length_append, List.length_singleton]
      exact hgt

/-- Every position may be kept. -/
theorem keepAt_true (items : List α) : keepAt (fun _ => true) items = items := by
  rw [keepAt, List.filter_true, List.zipIdx_map_fst]

theorem mem_keepAt_iff {items : List α} {item : α} :
    item ∈ keepAt keep items ↔ ∃ i, items[i]? = some item ∧ keep i = true := by
  rw [keepAt, List.mem_map]
  constructor
  · intro h
    obtain ⟨⟨x, i⟩, hx, rfl⟩ := h
    obtain ⟨hmem, hkeep⟩ := List.mem_filter.1 hx
    exact ⟨i, List.mem_zipIdx_iff_getElem?.1 hmem, hkeep⟩
  · intro h
    obtain ⟨i, hi, hkeep⟩ := h
    exact ⟨(item, i), List.mem_filter.2 ⟨List.mem_zipIdx_iff_getElem?.2 hi, hkeep⟩, rfl⟩

/-- The kept positions of a list stand beside its kept items. -/
theorem filter_range_eq (keep : Nat → Bool) (items : List α) :
    (List.range items.length).filter keep
      = (items.zipIdx.filter fun item => keep item.2).map (·.2) := by
  rw [List.range_eq_range', ← List.zipIdx_map_snd 0 items, List.filter_map]
  rfl

/-- Looking up the kept positions gives the kept items, each with its position. -/
theorem filterMap_filter_range (keep : Nat → Bool) (items : List α) (f : Nat → α → β) :
    ((List.range items.length).filter keep).filterMap (fun i => items[i]?.map (f i))
      = (items.zipIdx.filter fun item => keep item.2).map fun item => f item.2 item.1 := by
  rw [filter_range_eq, List.filterMap_map, ← List.filterMap_eq_map]
  refine List.filterMap_congr fun item hitem => ?_
  have hget := List.mem_zipIdx_iff_getElem?.1 (List.mem_filter.1 hitem).1
  simp [hget]

theorem filterMap_getElem?_filter_range (keep : Nat → Bool) (items : List α) :
    ((List.range items.length).filter keep).filterMap (fun i => items[i]?)
      = keepAt keep items := by
  have hmap := filterMap_filter_range keep items fun _ item => item
  simp only [Option.map_id'] at hmap
  exact hmap

/-- Beside the kept items stand their positions. -/
theorem zip_keepAt (keep : Nat → Bool) (items : List α) :
    ((List.range items.length).filter keep).zip (keepAt keep items)
      = ((List.range items.length).filter keep).filterMap
        fun i => items[i]?.map fun item => (i, item) := by
  rw [filterMap_filter_range, filter_range_eq, keepAt, List.zip_map']

/-! ## The last item that gives something -/

/-- What the last of the items gives that gives something. -/
def lastSome (f : α → Option β) (items : List α) : Option β := items.reverse.findSome? f

theorem lastSome_concat (f : α → Option β) (items : List α) (item : α) :
    lastSome f (items ++ [item]) = (f item).or (lastSome f items) := by
  rw [lastSome, List.reverse_append, List.findSome?_append, List.reverse_singleton,
    List.findSome?_singleton]
  rfl

theorem lastSome_cons (f : α → Option β) (item : α) (items : List α) :
    lastSome f (item :: items) = (lastSome f items).or (f item) := by
  rw [lastSome, List.reverse_cons, List.findSome?_append, List.findSome?_singleton]
  rfl

theorem lastSome_congr {f g : α → Option β} {items : List α} (h : ∀ item ∈ items, f item = g item) :
    lastSome f items = lastSome g items := by
  induction items with
  | nil => rfl
  | cons item items ih =>
    obtain ⟨hitem, hitems⟩ := List.forall_mem_cons.1 h
    rw [lastSome_cons, lastSome_cons, hitem, ih hitems]

theorem lastSome_filterMap {γ : Type} (f : β → Option γ) (g : α → Option β) (items : List α) :
    lastSome f (items.filterMap g) = lastSome (fun item => (g item).bind f) items := by
  induction items with
  | nil => rfl
  | cons item items ih =>
    rw [List.filterMap_cons, lastSome_cons, ← ih]
    cases g item with
    | none => exact (Option.or_none).symm
    | some b => exact lastSome_cons f b _

theorem exists_mem_of_lastSome {f : α → Option β} {items : List α} {b : β}
    (h : lastSome f items = some b) : ∃ item ∈ items, f item = some b := by
  obtain ⟨item, hitem, hf⟩ := List.exists_of_findSome?_eq_some h
  exact ⟨item, List.mem_reverse.1 hitem, hf⟩

theorem isSome_lastSome {f : α → Option β} {items : List α} {item : α} (hitem : item ∈ items)
    (h : (f item).isSome) : (lastSome f items).isSome :=
  List.findSome?_isSome_iff.2 ⟨item, List.mem_reverse.2 hitem, h⟩

/-! ## Items with their positions -/

/-- The items of a list, each with its position. -/
def numbered (items : List α) : List (Nat × α) :=
  items.zipIdx.map fun item => (item.2, item.1)

/-- Items in the order of the positions that they come with. -/
def inOrder (items : List (Nat × α)) : List α :=
  (items.mergeSort fun a b => a.1 ≤ b.1).map (·.2)

theorem mem_numbered_iff {items : List α} {item : Nat × α} :
    item ∈ numbered items ↔ items[item.1]? = some item.2 := by
  rw [numbered, List.mem_map]
  constructor
  · intro h
    obtain ⟨x, hx, rfl⟩ := h
    exact List.mem_zipIdx_iff_getElem?.1 hx
  · intro h
    exact ⟨(item.2, item.1), List.mem_zipIdx_iff_getElem?.2 h, rfl⟩

theorem filterMap_range_eq_numbered (items : List α) :
    (List.range items.length).filterMap (fun i => items[i]?.map fun item => (i, item))
      = numbered items := by
  have hmap := filterMap_filter_range (fun _ => true) items fun i item => (i, item)
  rwa [List.filter_true, List.filter_true] at hmap

theorem map_snd_numbered (items : List α) : (numbered items).map (·.2) = items := by
  rw [numbered, List.map_map]
  exact List.zipIdx_map_fst 0 items

theorem pairwise_numbered (items : List α) :
    (numbered items).Pairwise fun a b => a.1 ≤ b.1 := by
  rw [numbered, List.pairwise_map]
  have hpositions : (items.zipIdx.map (·.2)).Pairwise (· < ·) := by
    rw [List.zipIdx_map_snd]
    exact List.pairwise_lt_range'
  exact (List.pairwise_map.1 hpositions).imp Nat.le_of_lt

/-- However numbered items are shuffled, their numbers put them in order again. -/
theorem inOrder_of_perm {items : List α} {shuffled : List (Nat × α)}
    (h : shuffled.Perm (numbered items)) : inOrder shuffled = items := by
  have hsorted : (shuffled.mergeSort fun a b => a.1 ≤ b.1).Pairwise fun a b => a.1 ≤ b.1 := by
    have hmerge : (shuffled.mergeSort fun a b => a.1 ≤ b.1).Pairwise
        fun a b => decide (a.1 ≤ b.1) = true := by
      refine List.pairwise_mergeSort (fun a b c hab hbc => ?_) (fun a b => ?_) shuffled
      · exact decide_eq_true (Nat.le_trans (of_decide_eq_true hab) (of_decide_eq_true hbc))
      · simpa using Nat.le_total a.1 b.1
    exact hmerge.imp of_decide_eq_true
  have hperm := (List.mergeSort_perm shuffled fun a b => decide (a.1 ≤ b.1)).trans h
  have hsame : shuffled.mergeSort (fun a b => a.1 ≤ b.1) = numbered items := by
    refine hperm.eq_of_pairwise (fun a b ha hb hab hba => ?_) hsorted (pairwise_numbered items)
    -- One position holds one item.
    have hposition := Nat.le_antisymm hab hba
    have hitem := mem_numbered_iff.1 (hperm.mem_iff.1 ha)
    rw [hposition, mem_numbered_iff.1 hb] at hitem
    exact Prod.ext hposition (Option.some.inj hitem).symm
  rw [inOrder, hsame, map_snd_numbered]

end AnnotationGraft
