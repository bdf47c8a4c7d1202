import AnnotationGraft.Annotations.Wire
import AnnotationGraft.Proofs.Bytes.Reading
import AnnotationGraft.Proofs.ConstantPool.Interning
import AnnotationGraft.Proofs.Text.ModifiedUtf8

/-!
# Indices written and read

The index that interning gives for a value is one under which the value is read back
(`utf8_of_gives`, `className_of_gives` and their like).  In a canonical pool, one that holds no
entry twice and every text in its shortest form, the converse holds too: whatever is read under an
index, interning it gives that very index (`IsCanonical.gives_utf8` and its like).
-/

namespace AnnotationGraft

namespace ConstantPool

/-! ## What a look-up finds -/

theorem get_eq_ok_iff {pool : ConstantPool} {i : UInt16} {c : Constant} :
    pool.get i = .ok c ↔ pool.get? i = some c := by
  unfold get
  split
  · next h => simp [h]
  · next h => simp [h]

/-- A look-up takes the entry at the index, and then what it wants of it. -/
theorem get_bind_eq_ok_iff {α : Type} {pool : ConstantPool} {i : UInt16}
    {f : Constant → Except DecodeError α} {a : α} :
    (pool.get i >>= f) = .ok a ↔ ∃ c, pool.get? i = some c ∧ f c = .ok a := by
  simp only [except_bind_eq_ok_iff, get_eq_ok_iff]

/-- A look-up that succeeds for one entry only finds that entry. -/
theorem get_bind_eq_ok_iff_of_unique {α : Type} {pool : ConstantPool} {i : UInt16}
    {f : Constant → Except DecodeError α} {a : α} {c : Constant} (hf : ∀ d, f d = .ok a ↔ d = c) :
    (pool.get i >>= f) = .ok a ↔ pool.get? i = some c := by
  simp only [get_bind_eq_ok_iff, hf, exists_eq_right]

theorem utf8Bytes_eq_ok_iff {pool : ConstantPool} {i : UInt16} {bytes : Bytes} :
    pool.utf8Bytes i = .ok bytes ↔ pool.get? i = some (.utf8 bytes) :=
  get_bind_eq_ok_iff_of_unique fun d => by cases d <;> simp

theorem utf8_eq_ok_iff {pool : ConstantPool} {i : UInt16} {text : String} :
    pool.utf8 i = .ok text ↔
      ∃ bytes, pool.get? i = some (.utf8 bytes) ∧ ModifiedUtf8.decode bytes = some text := by
  simp only [← utf8Bytes_eq_ok_iff]
  unfold utf8
  cases pool.utf8Bytes i with
  | error e => simp [bind, Except.bind]
  | ok bytes =>
    cases h : ModifiedUtf8.decode bytes with
    | none => simp [bind, Except.bind, h]
    | some s => simp [bind, Except.bind, h]

theorem className_eq_ok_iff {pool : ConstantPool} {i : UInt16} {name : String} :
    pool.className i = .ok name ↔
      ∃ text, pool.get? i = some (.classInfo text) ∧ pool.utf8 text = .ok name := by
  rw [className, get_bind_eq_ok_iff]
  constructor
  · intro h
    obtain ⟨c, hc, h⟩ := h
    cases c <;> first | cases h | exact ⟨_, hc, h⟩
  · intro h
    obtain ⟨text, hc, h⟩ := h
    exact ⟨_, hc, h⟩

theorem integer_eq_ok_iff {pool : ConstantPool} {i : UInt16} {value : Int32} :
    pool.integer i = .ok value ↔ pool.get? i = some (.integer value) :=
  get_bind_eq_ok_iff_of_unique fun d => by cases d <;> simp

theorem long_eq_ok_iff {pool : ConstantPool} {i : UInt16} {value : Int64} :
    pool.long i = .ok value ↔ pool.get? i = some (.long value) :=
  get_bind_eq_ok_iff_of_unique fun d => by cases d <;> simp

theorem floatBits_eq_ok_iff {pool : ConstantPool} {i : UInt16} {bits : UInt32} :
    pool.floatBits i = .ok bits ↔ pool.get? i = some (.float bits) :=
  get_bind_eq_ok_iff_of_unique fun d => by cases d <;> simp

theorem doubleBits_eq_ok_iff {pool : ConstantPool} {i : UInt16} {bits : UInt64} :
    pool.doubleBits i = .ok bits ↔ pool.get? i = some (.double bits) :=
  get_bind_eq_ok_iff_of_unique fun d => by cases d <;> simp

/-- Slot 0 holds no entry. -/
theorem IsLaidOut.get?_zero {pool : ConstantPool} (h : pool.IsLaidOut) : pool.get? 0 = none := by
  obtain ⟨cs, hcs⟩ := h
  rw [get?_eq, hcs]
  rfl

end ConstantPool

/-! ## From the index that interning gives -/

namespace Interning

variable {pool : ConstantPool}

theorem get?_of_gives_constant (hsize : pool.size ≤ maxWord) {c : Constant} {i : UInt16}
    (h : Gives (constant c) pool i) : pool.get? i = some c := by
  obtain ⟨k, hk, rfl⟩ := gives_constant_iff.1 h
  exact ConstantPool.get?_ofNat_of_indexOf? hsize hk

/-- An interned text is read back under its index. -/
theorem utf8_of_gives (hsize : pool.size ≤ maxWord) {text : String} {i : UInt16}
    (h : Gives (utf8 text) pool i) : pool.utf8 i = .ok text :=
  ConstantPool.utf8_eq_ok_iff.2
    ⟨_, get?_of_gives_utf8 hsize h, ModifiedUtf8.decode_bytes_of_text text⟩

/-- An interned class name is read back under its index. -/
theorem className_of_gives (hsize : pool.size ≤ maxWord) {name : String} {i : UInt16}
    (h : Gives (className name) pool i) : pool.className i = .ok name := by
  obtain ⟨text, htext, hclass⟩ := gives_className_iff.1 h
  exact ConstantPool.className_eq_ok_iff.2
    ⟨text, get?_of_gives_constant hsize hclass, utf8_of_gives hsize htext⟩

end Interning

namespace Scan

variable {α : Type} {find : UInt16 → Except DecodeError α}

theorem reads_lookup {i : UInt16} {a : α} (h : find i = .ok a) :
    Reads (lookup find) (BigEndian.ofUInt16 i) a := by
  have hread : Reads (lookup find) (BigEndian.ofUInt16 i ++ []) a :=
    (reads_word16 i).bind (reads_ofExcept h)
  rwa [List.append_nil] at hread

theorem ensures_lookup : Ensures (lookup find) fun bytes a =>
    ∃ i, bytes = BigEndian.ofUInt16 i ∧ find i = .ok a := by
  refine ensures_word16.bind ?_
  intro front i h
  subst h
  exact ensures_ofExcept fun a ha => ⟨i, by rw [List.append_nil], ha⟩

end Scan

/-! ## Canonical pools -/

/-- Whether a byte sequence that stands for a text is the one in which that text is written. -/
def ModifiedUtf8.isShortest (bytes : Bytes) : Bool :=
  match decode bytes with
  | some text => encode text == bytes
  | none => true

/-- Whether an entry is not a text in a longer form than it is written in. -/
def Constant.isShortest : Constant → Bool
  | utf8 bytes => ModifiedUtf8.isShortest bytes
  | _ => true

namespace ConstantPool

/-- No two entries of the pool are equal. -/
def HasDistinctEntries (pool : ConstantPool) : Prop := (pool.entries.map (·.2)).Nodup

instance (pool : ConstantPool) : Decidable pool.HasDistinctEntries :=
  inferInstanceAs (Decidable (List.Nodup _))

/-- Every text of the pool is in its shortest form; bytes that are no text may be any. -/
def HasShortestTexts (pool : ConstantPool) : Prop :=
  ∀ c ∈ pool.entries.map (·.2), c.isShortest = true

instance (pool : ConstantPool) : Decidable pool.HasShortestTexts :=
  inferInstanceAs (Decidable (∀ c ∈ _, _))

/-- No text of the pool is longer than its count can say. -/
def TextsFit (pool : ConstantPool) : Prop :=
  ∀ bytes, Constant.utf8 bytes ∈ pool.entries.map (·.2) → bytes.length ≤ maxWord

/-- What lets every index that was read be found again by its value. -/
structure IsCanonical (pool : ConstantPool) : Prop where
  distinct : pool.HasDistinctEntries
  shortest : pool.HasShortestTexts
  textsFit : pool.TextsFit

theorem mem_entries_of_get? {pool : ConstantPool} {i : UInt16} {c : Constant}
    (h : pool.get? i = some c) : c ∈ pool.entries.map (·.2) := by
  rw [map_snd_entries, List.mem_filterMap]
  exact ⟨some c, List.mem_of_getElem? (get?_eq_some_iff.1 h), rfl⟩

/-- Where entries are distinct, a constant stands in one slot only. -/
theorem HasDistinctEntries.eq_of_getElem? {pool : ConstantPool} (h : pool.HasDistinctEntries)
    {c : Constant} {j k : Nat} (hj : pool.slots.toList[j]? = some (some c))
    (hk : pool.slots.toList[k]? = some (some c)) : j = k := by
  rw [HasDistinctEntries, map_snd_entries, List.Nodup, List.pairwise_filterMap,
    List.pairwise_iff_getElem] at h
  obtain ⟨hjlt, hjc⟩ := List.getElem?_eq_some_iff.1 hj
  obtain ⟨hklt, hkc⟩ := List.getElem?_eq_some_iff.1 hk
  rcases Nat.lt_trichotomy j k with hlt | heq | hgt
  · exact absurd rfl (h j k hjlt hklt hlt c (by simp [hjc]) c (by simp [hkc]))
  · exact heq
  · exact absurd rfl (h k j hklt hjlt hgt c (by simp [hkc]) c (by simp [hjc]))

/-- Where entries are distinct, interning a constant gives the index under which it is read. -/
theorem HasDistinctEntries.gives_constant {pool : ConstantPool} (h : pool.HasDistinctEntries)
    {c : Constant} {i : UInt16} (hi : pool.get? i = some c) :
    Interning.Gives (Interning.constant c) pool i := by
  have hslot := get?_eq_some_iff.1 hi
  refine Interning.gives_constant_iff.2 ⟨i.toNat, ?_, UInt16.ofNat_toNat.symm⟩
  exact indexOf?_eq_some_iff.2
    ⟨hslot, fun j hj hjc => absurd (h.eq_of_getElem? hjc hslot) (Nat.ne_of_lt hj)⟩

/-- Interning a text that was read gives the index under which it was read. -/
theorem IsCanonical.gives_utf8 {pool : ConstantPool} (h : pool.IsCanonical) {text : String}
    {i : UInt16} (hi : pool.utf8 i = .ok text) :
    Interning.Gives (Interning.utf8 text) pool i := by
  obtain ⟨bytes, hget, hdecode⟩ := utf8_eq_ok_iff.1 hi
  have hmem := mem_entries_of_get? hget
  have hshort : ModifiedUtf8.encode text = bytes := by
    have hbytes := h.shortest _ hmem
    rw [Constant.isShortest, ModifiedUtf8.isShortest, hdecode] at hbytes
    simpa using hbytes
  rw [Interning.gives_utf8_iff, hshort]
  exact ⟨h.textsFit bytes hmem, h.distinct.gives_constant hget⟩

/-- Interning a class name that was read gives the index under which it was read. -/
theorem IsCanonical.gives_className {pool : ConstantPool} (h : pool.IsCanonical) {name : String}
    {i : UInt16} (hi : pool.className i = .ok name) :
    Interning.Gives (Interning.className name) pool i := by
  obtain ⟨text, hget, htext⟩ := className_eq_ok_iff.1 hi
  exact Interning.gives_className_iff.2
    ⟨text, h.gives_utf8 htext, h.distinct.gives_constant hget⟩

end ConstantPool

end AnnotationGraft
