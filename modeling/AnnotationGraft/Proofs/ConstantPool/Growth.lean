import AnnotationGraft.ConstantPool.Interning
import AnnotationGraft.ConstantPool.References
import AnnotationGraft.Proofs.Outcome

/-!
# Pools that grow

A pool only ever grows at its end.  `ConstantPool.Extends` says that a pool begins with the slots of
another one, so that whatever the smaller pool holds stands at the same index in the larger one.

`ConstantPool.IsSound` is what every pool of a class file keeps: its slots are laid out by the
widths of its entries, there are no more than a class file can count, and every reference leads to
an entry of the right kind.
-/

namespace AnnotationGraft

namespace ConstantPool

/-! ## Slots by their number -/

theorem get?_eq (pool : ConstantPool) (index : UInt16) :
    pool.get? index = (pool.slots.toList[index.toNat]?).join := by
  rw [get?, Array.getElem?_toList]

theorem get?_eq_some_iff {pool : ConstantPool} {index : UInt16} {c : Constant} :
    pool.get? index = some c ↔ pool.slots.toList[index.toNat]? = some (some c) := by
  rw [get?_eq, Option.join_eq_some_iff]

theorem size_eq_length (pool : ConstantPool) : pool.size = pool.slots.toList.length := rfl

/-- The first slot that holds a constant: it does, and none before it does. -/
theorem indexOf?_eq_some_iff {pool : ConstantPool} {c : Constant} {k : Nat} :
    pool.indexOf? c = some k ↔
      pool.slots.toList[k]? = some (some c) ∧
        ∀ j, j < k → pool.slots.toList[j]? ≠ some (some c) := by
  rw [indexOf?, Array.findIdx?_eq_some_iff_getElem]
  constructor
  · intro h
    obtain ⟨hk, hc, hmin⟩ := h
    refine ⟨?_, fun j hj hjc => ?_⟩
    · rw [Array.getElem?_toList, Array.getElem?_eq_getElem hk]
      simpa using hc
    · have hne := hmin j hj
      rw [Array.getElem?_toList, Array.getElem?_eq_getElem (by omega), Option.some.injEq] at hjc
      simp [hjc] at hne
  · intro h
    obtain ⟨hc, hmin⟩ := h
    obtain ⟨hk, hkc⟩ := List.getElem?_eq_some_iff.1 hc
    rw [Array.getElem_toList] at hkc
    refine ⟨hk, by simp [hkc], fun j hj => ?_⟩
    have hne := hmin j hj
    have hjlt : j < pool.slots.size := Nat.lt_trans hj hk
    rw [Array.getElem?_toList, Array.getElem?_eq_getElem hjlt, ne_eq, Option.some.injEq] at hne
    simpa using hne

theorem indexOf?_eq_none_iff {pool : ConstantPool} {c : Constant} :
    pool.indexOf? c = none ↔ ∀ j : Nat, pool.slots.toList[j]? ≠ some (some c) := by
  rw [indexOf?, Array.findIdx?_eq_none_iff]
  constructor
  · intro h j hj
    have hmem : some c ∈ pool.slots := Array.mem_toList_iff.1 (List.mem_of_getElem? hj)
    simpa using h _ hmem
  · intro h slot hslot
    obtain ⟨j, hj⟩ := List.getElem?_of_mem (Array.mem_toList_iff.2 hslot)
    simp only [beq_eq_false_iff_ne]
    intro h
    subst h
    exact h j hj

theorem lt_size_of_indexOf? {pool : ConstantPool} {c : Constant} {k : Nat}
    (h : pool.indexOf? c = some k) : k < pool.size := by
  obtain ⟨hk, -⟩ := List.getElem?_eq_some_iff.1 (indexOf?_eq_some_iff.1 h).1
  exact hk

/-- In a pool that a class file can count, a constant stands at the index that its slot has. -/
theorem get?_ofNat_of_indexOf? {pool : ConstantPool} {c : Constant} {k : Nat}
    (hsize : pool.size ≤ maxWord) (h : pool.indexOf? c = some k) :
    pool.get? (UInt16.ofNat k) = some c := by
  have hk := lt_size_of_indexOf? h
  have hword : (UInt16.ofNat k).toNat = k := by
    rw [UInt16.toNat_ofNat']
    exact Nat.mod_eq_of_lt (by simp only [maxWord] at hsize; omega)
  rw [get?_eq_some_iff, hword]
  exact (indexOf?_eq_some_iff.1 h).1

/-! ## Growth -/

/-- The pool begins with the slots of another one. -/
def Extends (larger pool : ConstantPool) : Prop := pool.slots.toList <+: larger.slots.toList

theorem Extends.refl (pool : ConstantPool) : pool.Extends pool := List.prefix_rfl

theorem Extends.trans {largest larger pool : ConstantPool} (h : largest.Extends larger)
    (h' : larger.Extends pool) : largest.Extends pool := List.IsPrefix.trans h' h

theorem Extends.size_le {larger pool : ConstantPool} (h : larger.Extends pool) :
    pool.size ≤ larger.size := h.length_le

/-- Two pools that extend each other are the same. -/
theorem Extends.antisymm {p q : ConstantPool} (h : p.Extends q) (h' : q.Extends p) : p = q := by
  have hslots : p.slots.toList = q.slots.toList :=
    (List.IsPrefix.eq_of_length h (Nat.le_antisymm h.length_le h'.length_le)).symm
  cases p
  cases q
  simpa using hslots

theorem Extends.getElem? {larger pool : ConstantPool} (h : larger.Extends pool) {k : Nat}
    {slot : Option Constant} (hk : pool.slots.toList[k]? = some slot) :
    larger.slots.toList[k]? = some slot := by
  obtain ⟨hlt, rfl⟩ := List.getElem?_eq_some_iff.1 hk
  obtain ⟨rest, hrest⟩ := h
  rw [← hrest, List.getElem?_append_left hlt, List.getElem?_eq_getElem hlt]

/-- An index keeps its meaning. -/
theorem Extends.get? {larger pool : ConstantPool} (h : larger.Extends pool) {index : UInt16}
    {c : Constant} (hc : pool.get? index = some c) : larger.get? index = some c := by
  rw [get?_eq_some_iff] at hc ⊢
  exact h.getElem? hc

/-- A constant is found in the slot where it was found. -/
theorem Extends.indexOf? {larger pool : ConstantPool} (h : larger.Extends pool) {c : Constant}
    {k : Nat} (hk : pool.indexOf? c = some k) : larger.indexOf? c = some k := by
  have hlt := lt_size_of_indexOf? hk
  rw [indexOf?_eq_some_iff] at hk ⊢
  refine ⟨h.getElem? hk.1, fun j hj hjc => ?_⟩
  obtain ⟨slot, hslot⟩ : ∃ slot, pool.slots.toList[j]? = some slot :=
    ⟨_, List.getElem?_eq_getElem (Nat.lt_trans hj hlt)⟩
  have hsame := h.getElem? hslot
  rw [hjc, Option.some.injEq] at hsame
  exact hk.2 j hj (hsame ▸ hslot)

theorem extends_push (pool : ConstantPool) (c : Constant) : (pool.push c).Extends pool := by
  rw [Extends, slots_push]
  exact List.prefix_append _ _

/-- A constant that was not there is found where it was added. -/
theorem indexOf?_push {pool : ConstantPool} {c : Constant} (h : pool.indexOf? c = none) :
    (pool.push c).indexOf? c = some pool.size := by
  rw [indexOf?_eq_some_iff, slots_push]
  constructor
  · rw [size_eq_length, List.getElem?_append_right (Nat.le_refl _), Nat.sub_self]
    rfl
  · intro j hj
    rw [List.getElem?_append_left hj]
    exact indexOf?_eq_none_iff.1 h j

/-! ## Entries -/

/-- The constants of the entries are those that the slots hold. -/
theorem map_snd_entries (pool : ConstantPool) :
    pool.entries.map (·.2) = pool.slots.toList.filterMap id := by
  suffices hgen : ∀ (slots : List (Option Constant)) (n : Nat),
      ((slots.zipIdx n).filterMap fun x => x.1.map fun c => (UInt16.ofNat x.2, c)).map (·.2)
        = slots.filterMap id from hgen _ 0
  intro slots
  induction slots with
  | nil => intro n; rfl
  | cons slot slots ih =>
    intro n
    cases slot with
    | none => simpa [List.zipIdx_cons] using ih (n + 1)
    | some c => simpa [List.zipIdx_cons] using ih (n + 1)

/-- Adding a constant adds one entry. -/
theorem entries_push (pool : ConstantPool) (c : Constant) :
    (pool.push c).entries = pool.entries ++ [(UInt16.ofNat pool.size, c)] := by
  rw [entries, slots_push, List.zipIdx_append, List.filterMap_append]
  congr 1
  unfold Constant.width
  split <;> simp [List.zipIdx_cons, size_eq_length]

end ConstantPool

/-- The slots that an entry takes. -/
def Constant.slots (c : Constant) : List (Option Constant) :=
  some c :: List.replicate (c.width - 1) none

namespace ConstantPool

/-! ## Layout -/

/-- Slot 0 is empty, and then come the entries, each with the empty slot that a wide one needs. -/
def IsLaidOut (pool : ConstantPool) : Prop :=
  ∃ cs : List Constant, pool.slots.toList = none :: cs.flatMap Constant.slots

theorem IsLaidOut.push {pool : ConstantPool} (h : pool.IsLaidOut) (c : Constant) :
    (pool.push c).IsLaidOut := by
  obtain ⟨cs, hcs⟩ := h
  refine ⟨cs ++ [c], ?_⟩
  rw [slots_push, hcs]
  simp [Constant.slots]

/-! ## References -/

theorem checkReferences_eq_ok_iff {pool : ConstantPool} :
    pool.checkReferences = .ok () ↔ ∀ e ∈ pool.entries, pool.checkEntry e = .ok () :=
  except_forM_eq_ok_iff

theorem checkReference_eq_ok_iff {pool : ConstantPool} {index : UInt16}
    {reference : UInt16 × ConstantKind} :
    pool.checkReference index reference = .ok () ↔
      ∃ target, pool.get? reference.1 = some target ∧ target.kind = reference.2 := by
  unfold checkReference
  split
  · next h => simp [h]
  · next target h =>
    split
    · next hk => simp [h, hk]
    · next hk => simp [h, hk]

/-- A reference that was right stays right. -/
theorem Extends.checkEntry {larger pool : ConstantPool} (h : larger.Extends pool)
    {e : UInt16 × Constant} (he : pool.checkEntry e = .ok ()) : larger.checkEntry e = .ok () := by
  obtain ⟨i, c⟩ := e
  by_cases hc : ∃ kind target, c = .methodHandle kind target
  · obtain ⟨kind, target, rfl⟩ := hc
    simp only [ConstantPool.checkEntry] at he ⊢
    split at he
    · next hkind =>
      rw [if_pos hkind]
      split at he
      · next found hfound => rw [h.get? hfound]
      · cases he
    · cases he
  · have hforM : ∀ p : ConstantPool,
        p.checkEntry (i, c) = (typedReferences c).forM (p.checkReference i) := by
      intro p
      cases c <;> first | rfl | exact absurd ⟨_, _, rfl⟩ hc
    rw [hforM, except_forM_eq_ok_iff] at he ⊢
    intro reference href
    obtain ⟨target, htarget, hkind⟩ := checkReference_eq_ok_iff.1 (he reference href)
    exact checkReference_eq_ok_iff.2 ⟨target, h.get? htarget, hkind⟩

/-! ## Soundness -/

/-- What every pool of a class file keeps. -/
structure IsSound (pool : ConstantPool) : Prop where
  laidOut : pool.IsLaidOut
  size_le : pool.size ≤ maxWord
  references : pool.checkReferences = .ok ()

/-- Adding an entry that fits and refers to what it has to keeps a pool sound. -/
theorem IsSound.push {pool : ConstantPool} (h : pool.IsSound) {c : Constant}
    (hfits : pool.size + c.width ≤ maxWord)
    (hc : (pool.push c).checkEntry (UInt16.ofNat pool.size, c) = .ok ()) :
    (pool.push c).IsSound where
  laidOut := h.laidOut.push c
  size_le := by rwa [size_push]
  references := by
    rw [checkReferences_eq_ok_iff, entries_push]
    intro e he
    rcases List.mem_append.1 he with hold | hnew
    · exact (extends_push pool c).checkEntry (checkReferences_eq_ok_iff.1 h.references e hold)
    · rw [List.mem_singleton.1 hnew]
      exact hc

end ConstantPool

end AnnotationGraft
