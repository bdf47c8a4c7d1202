import AnnotationGraft.Proofs.ConstantPool.Segment

/-!
# The pool as its users see it

A pool that was read is laid out, and its references were checked.  This module says the same slot
by slot and entry by entry, without the reader: `IsLaidOut.getElem?_eq_none_iff` tells which slots
are empty, `linked_of_checkReferences` where the references of the entries lead, and
`declaredSlots?` is the number of slots that a class file announces.
-/

namespace AnnotationGraft

theorem Constant.isWide_iff {c : Constant} :
    c.isWide = true ↔ c.kind = .long ∨ c.kind = .double := by
  unfold isWide
  cases c.kind <;> simp

/-- The entry refers to the index, and needs an entry of the kind there.  A method handle may refer
to an entry of any kind; `ConstantPool.IsLinked` speaks of it on its own. -/
inductive Constant.RefersTo : Constant → UInt16 → ConstantKind → Prop where
  | classInfo (name : UInt16) : RefersTo (.classInfo name) name .utf8
  | string (text : UInt16) : RefersTo (.string text) text .utf8
  | methodType (descriptor : UInt16) : RefersTo (.methodType descriptor) descriptor .utf8
  | moduleInfo (name : UInt16) : RefersTo (.moduleInfo name) name .utf8
  | packageInfo (name : UInt16) : RefersTo (.packageInfo name) name .utf8
  | name (name descriptor : UInt16) : RefersTo (.nameAndType name descriptor) name .utf8
  | descriptor (name descriptor : UInt16) : RefersTo (.nameAndType name descriptor) descriptor .utf8
  | fieldOwner (owner field : UInt16) : RefersTo (.fieldRef owner field) owner .classInfo
  | field (owner field : UInt16) : RefersTo (.fieldRef owner field) field .nameAndType
  | methodOwner (owner method : UInt16) : RefersTo (.methodRef owner method) owner .classInfo
  | method (owner method : UInt16) : RefersTo (.methodRef owner method) method .nameAndType
  | interfaceMethodOwner (owner method : UInt16) :
    RefersTo (.interfaceMethodRef owner method) owner .classInfo
  | interfaceMethod (owner method : UInt16) :
    RefersTo (.interfaceMethodRef owner method) method .nameAndType
  | dynamic (bootstrap constant : UInt16) :
    RefersTo (.dynamic bootstrap constant) constant .nameAndType
  | invokeDynamic (bootstrap method : UInt16) :
    RefersTo (.invokeDynamic bootstrap method) method .nameAndType

namespace ConstantPool

/-! ## Empty slots -/

/-- Where entries stand one after another, the slot after a wide one is empty, and no other is. -/
private theorem getElem?_flatMap_slots_eq_none_iff {cs : List Constant} {k : Nat} :
    (cs.flatMap Constant.slots)[k]? = some none ↔
      ∃ j c, k = j + 1 ∧ (cs.flatMap Constant.slots)[j]? = some (some c) ∧ c.isWide = true := by
  induction cs generalizing k with
  | nil => simp
  | cons c cs ih =>
    rw [List.flatMap_cons]
    by_cases hwide : c.isWide = true
    · -- The entry, its empty slot, and the slots of the other entries.
      have hslots : c.slots = [some c, none] := by
        simp [Constant.slots, Constant.width, hwide]
      rw [hslots]
      rcases k with _ | _ | k
      · simp
      · simp [hwide]
      · simp only [List.cons_append, List.nil_append, List.getElem?_cons_succ, ih]
        constructor
        · rintro ⟨j, d, rfl, hj, hd⟩
          exact ⟨j + 2, d, rfl, hj, hd⟩
        · rintro ⟨j, d, hk, hj, hd⟩
          obtain rfl : j = k + 1 := by omega
          cases k with
          | zero => simp at hj
          | succ k => exact ⟨k, d, rfl, hj, hd⟩
    · have hslots : c.slots = [some c] := by
        simp [Constant.slots, Constant.width, hwide]
      rw [hslots]
      cases k with
      | zero => simp
      | succ k =>
        simp only [List.singleton_append, List.getElem?_cons_succ, ih]
        constructor
        · rintro ⟨j, d, rfl, hj, hd⟩
          exact ⟨j + 1, d, rfl, hj, hd⟩
        · rintro ⟨j, d, hk, hj, hd⟩
          obtain rfl : j = k := by omega
          cases j with
          | zero =>
            simp only [List.getElem?_cons_zero, Option.some.injEq] at hj
            exact absurd (hj ▸ hd) hwide
          | succ j => exact ⟨j, d, rfl, hj, hd⟩

/-- Slot 0 is empty, so is the slot after a wide entry, and no other slot is. -/
theorem IsLaidOut.getElem?_eq_none_iff {pool : ConstantPool} (h : pool.IsLaidOut) {k : Nat} :
    pool.slots.toList[k]? = some none ↔
      k = 0 ∨ ∃ j c, k = j + 1 ∧ pool.slots.toList[j]? = some (some c)
        ∧ (c.kind = .long ∨ c.kind = .double) := by
  obtain ⟨cs, hcs⟩ := h
  simp only [← Constant.isWide_iff]
  rw [hcs]
  cases k with
  | zero => simp
  | succ k =>
    rw [List.getElem?_cons_succ, getElem?_flatMap_slots_eq_none_iff]
    constructor
    · rintro ⟨j, c, rfl, hj, hc⟩
      exact .inr ⟨j + 1, c, rfl, hj, hc⟩
    · rintro (hzero | ⟨j, c, hk, hj, hc⟩)
      · cases hzero
      · obtain rfl : j = k := by omega
        cases j with
        | zero => simp at hj
        | succ j => exact ⟨j, c, rfl, hj, hc⟩

/-! ## References -/

/-- Every reference leads to an entry of the kind that it needs. -/
structure IsLinked (pool : ConstantPool) : Prop where
  typed : ∀ {i c j kind}, pool.get? i = some c → c.RefersTo j kind →
    ∃ target, pool.get? j = some target ∧ target.kind = kind
  /-- A method handle is of one of the nine kinds, and refers to any entry. -/
  handles : ∀ {i kind j}, pool.get? i = some (.methodHandle kind j) →
    (1 ≤ kind.toNat ∧ kind.toNat ≤ 9) ∧ ∃ target, pool.get? j = some target

theorem mem_typedReferences_of_refersTo {c : Constant} {j : UInt16} {kind : ConstantKind}
    (h : c.RefersTo j kind) : (j, kind) ∈ typedReferences c := by
  cases h <;> simp [typedReferences]

/-- What a look-up finds is one of the entries. -/
theorem mk_mem_entries_of_get? {pool : ConstantPool} {i : UInt16} {c : Constant}
    (h : pool.get? i = some c) : (i, c) ∈ pool.entries := by
  rw [entries, List.mem_filterMap]
  refine ⟨(some c, i.toNat), ?_, by simp⟩
  rw [List.mem_zipIdx_iff_getElem?]
  exact get?_eq_some_iff.1 h

/-- What the check of the references finds right. -/
theorem linked_of_checkReferences {pool : ConstantPool} (h : pool.checkReferences = .ok ()) :
    pool.IsLinked where
  typed {i c j kind} hc href := by
    have hentry := checkReferences_eq_ok_iff.1 h _ (mk_mem_entries_of_get? hc)
    have hforM : (typedReferences c).forM (pool.checkReference i) = .ok () := by
      cases href <;> exact hentry
    exact checkReference_eq_ok_iff.1
      (except_forM_eq_ok_iff.1 hforM _ (mem_typedReferences_of_refersTo href))
  handles {i kind j} hc := by
    have hentry := checkReferences_eq_ok_iff.1 h _ (mk_mem_entries_of_get? hc)
    simp only [checkEntry] at hentry
    split at hentry
    · next hkind =>
      refine ⟨hkind, ?_⟩
      split at hentry
      · next target htarget => exact ⟨target, htarget⟩
      · cases hentry
    · cases hentry

/-! ## The count -/

/-- The number of slots that a class file announces for its pool, in the word after its version. -/
def declaredSlots? (bytes : Bytes) : Option Nat :=
  match bytes.drop 8 with
  | b1 :: b0 :: _ => some (b1.toNat * 256 + b0.toNat)
  | _ => none

theorem declaredSlots?_append {front : Bytes} (hfront : front.length = 8) (count : UInt16)
    (rest : Bytes) :
    declaredSlots? (front ++ (BigEndian.ofUInt16 count ++ rest)) = some count.toNat := by
  have hword := count.toNat_lt
  have hbytes : (UInt8.ofNat (count.toNat / 0x100)).toNat * 256 + (UInt8.ofNat count.toNat).toNat
      = count.toNat := by
    simp only [UInt8.toNat_ofNat']
    omega
  rw [declaredSlots?, List.drop_left' hfront]
  exact congrArg some hbytes

end ConstantPool

end AnnotationGraft
