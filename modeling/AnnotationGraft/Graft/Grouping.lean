import AnnotationGraft.ClassFile.Basic

/-!
# Grouping

Items are grouped by their keys in one pass.  The groups are a row that grows at its end, and a key
that has come has the number of its group noted, so that a later item with the key goes there
whatever groups have been started since.  An item without a key is a group of its own.
-/

namespace AnnotationGraft

/-- Groups under way. -/
structure Grouping (κ α : Type) where
  groups : List (List α)
  /-- The keys that have come, each with the number of its group. -/
  numbers : List (κ × Nat)
  /-- Every number is that of a group. -/
  lt_length : ∀ entry ∈ numbers, entry.2 < groups.length

namespace Grouping

variable {κ α : Type}

/-- No groups yet. -/
def empty : Grouping κ α where
  groups := []
  numbers := []
  lt_length := nofun

/-- Adds an item to the group with a number. -/
def extend (grouping : Grouping κ α) (number : Fin grouping.groups.length) (item : α) :
    Grouping κ α where
  groups := grouping.groups.set number (grouping.groups[number] ++ [item])
  numbers := grouping.numbers
  lt_length := by simpa using grouping.lt_length

/-- Starts a group with an item, and notes its number for the key of the item, if it has one. -/
def start (grouping : Grouping κ α) (key : Option κ) (item : α) : Grouping κ α where
  groups := grouping.groups ++ [[item]]
  numbers := (key.map fun k => (k, grouping.groups.length)).toList ++ grouping.numbers
  lt_length := by
    intro entry hentry
    rw [List.length_append, List.length_singleton]
    rcases List.mem_append.1 hentry with hnew | hold
    · obtain ⟨k, -, rfl⟩ := Option.map_eq_some_iff.1 (Option.mem_toList.1 hnew)
      exact Nat.lt_succ_self _
    · exact Nat.lt_succ_of_lt (grouping.lt_length entry hold)

@[simp] theorem groups_extend (grouping : Grouping κ α) (number : Fin grouping.groups.length)
    (item : α) : (grouping.extend number item).groups
      = grouping.groups.set number (grouping.groups[number] ++ [item]) := rfl

@[simp] theorem numbers_extend (grouping : Grouping κ α) (number : Fin grouping.groups.length)
    (item : α) : (grouping.extend number item).numbers = grouping.numbers := rfl

@[simp] theorem groups_start (grouping : Grouping κ α) (key : Option κ) (item : α) :
    (grouping.start key item).groups = grouping.groups ++ [[item]] := rfl

@[simp] theorem numbers_start (grouping : Grouping κ α) (key : Option κ) (item : α) :
    (grouping.start key item).numbers
      = (key.map fun k => (k, grouping.groups.length)).toList ++ grouping.numbers := rfl

variable [DecidableEq κ]

theorem lt_length_of_lookup {grouping : Grouping κ α} {key : κ} {number : Nat}
    (h : grouping.numbers.lookup key = some number) : number < grouping.groups.length := by
  obtain ⟨front, back, hnumbers, -⟩ := List.lookup_eq_some_iff.1 h
  exact grouping.lt_length (key, number) (by simp [hnumbers])

/-- The number of the group of a key, if the key has come. -/
def number? (grouping : Grouping κ α) (key : κ) : Option (Fin grouping.groups.length) :=
  (grouping.numbers.lookup key).pmap Fin.mk fun _ h => lt_length_of_lookup h

/-- Adds an item to the group of its key, or else starts a group with it. -/
def add (grouping : Grouping κ α) (item : Option κ × α) : Grouping κ α :=
  match item.1.bind grouping.number? with
  | some number => grouping.extend number item.2
  | none => grouping.start item.1 item.2

end Grouping

/-- Groups items by their keys, in the order of first appearance.  An item without a key is a group
of its own. -/
def groupByKey {κ α : Type} [DecidableEq κ] (items : List (Option κ × α)) : List (List α) :=
  (items.foldl Grouping.add Grouping.empty).groups

/-- The positions of recipients, grouped by recipient. -/
def groupByRecipient (recipients : List (Option ClassName)) : List (List Nat) :=
  groupByKey recipients.zipIdx

end AnnotationGraft
