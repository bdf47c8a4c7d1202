import AnnotationGraft.ConstantPool.Segment
import AnnotationGraft.Proofs.ConstantPool.Lookup

/-!
# The pool written and read

`ConstantPool.segment` writes a pool as its count and its entries; `ConstantPool.scan` reads them.
A pool that is laid out comes back from its segment (`reads_scan`), and a pool that was read has as
its segment the bytes that it was read from (`ensures_scan`), except that a count of 0 becomes 1.
-/

namespace AnnotationGraft

namespace Constant

/-- An entry in a file: its tag, and what follows the tag. -/
def written (c : Constant) : Bytes := c.tag :: c.body

/-- Whether the text of a string entry is no longer than its count can say. -/
def Fits (c : Constant) : Prop := ∀ bytes, c = .utf8 bytes → bytes.length ≤ maxWord

theorem fits_of_kind_ne {c : Constant} (h : c.kind ≠ .utf8) : c.Fits := by
  intro bytes hc
  subst hc
  exact absurd rfl h

theorem segment_eq_ok_iff {c : Constant} {bytes : Bytes} :
    c.segment = .ok bytes ↔ c.Fits ∧ bytes = c.written := by
  cases c with
  | utf8 text =>
    simp only [segment, Fits, written, utf8.injEq, forall_eq']
    split
    · next h => simp [Nat.not_le.2 h]
    · next h => simp [Nat.not_lt.1 h, eq_comm]
  | _ => simp [segment, Fits, written, eq_comm]

/-! ## One entry -/

theorem reads_scanBody {c : Constant} (h : c.Fits) : Scan.Reads (scanBody c.kind) c.body c := by
  cases c with
  | utf8 text =>
    have hlen : text.length ≤ 65535 := h text rfl
    refine (Scan.reads_word16 _).bind ?_
    exact (Scan.reads_bytes (Scan.toNat_tableCount hlen)).map Constant.utf8
  | integer value =>
    exact (Scan.reads_word32 value.toUInt32).map fun w => Constant.integer w.toInt32
  | long value =>
    exact (Scan.reads_word64 value.toUInt64).map fun w => Constant.long w.toInt64
  | float bits => exact (Scan.reads_word32 bits).map Constant.float
  | double bits => exact (Scan.reads_word64 bits).map Constant.double
  | classInfo i => exact (Scan.reads_word16 i).map Constant.classInfo
  | string i => exact (Scan.reads_word16 i).map Constant.string
  | methodType i => exact (Scan.reads_word16 i).map Constant.methodType
  | moduleInfo i => exact (Scan.reads_word16 i).map Constant.moduleInfo
  | packageInfo i => exact (Scan.reads_word16 i).map Constant.packageInfo
  | fieldRef i j => exact (Scan.reads_word16 i).bind ((Scan.reads_word16 j).map (fieldRef i))
  | methodRef i j => exact (Scan.reads_word16 i).bind ((Scan.reads_word16 j).map (methodRef i))
  | interfaceMethodRef i j =>
    exact (Scan.reads_word16 i).bind ((Scan.reads_word16 j).map (interfaceMethodRef i))
  | nameAndType i j => exact (Scan.reads_word16 i).bind ((Scan.reads_word16 j).map (nameAndType i))
  | dynamic i j => exact (Scan.reads_word16 i).bind ((Scan.reads_word16 j).map (dynamic i))
  | invokeDynamic i j =>
    exact (Scan.reads_word16 i).bind ((Scan.reads_word16 j).map (invokeDynamic i))
  | methodHandle kind i =>
    exact (Scan.reads_byte kind).bind ((Scan.reads_word16 i).map (methodHandle kind))

/-- An entry that fits is read back, whatever its index. -/
theorem reads_scan {c : Constant} (h : c.Fits) (index : UInt16) :
    Scan.Reads (scan index) c.written c := by
  show Scan.Reads _ ([c.tag] ++ c.body) c
  refine (Scan.reads_byte c.tag).bind ?_
  rw [tag, ConstantKind.ofTag?_tag]
  exact reads_scanBody h

/-- What is read after the tag of a kind is an entry of the kind, and the bytes are its own. -/
theorem ensures_scanBody (kind : ConstantKind) :
    Scan.Ensures (scanBody kind) fun bytes c => c.kind = kind ∧ c.Fits ∧ bytes = c.body := by
  cases kind with
  | utf8 =>
    refine Scan.ensures_word16.bind ?_
    intro front size h
    subst h
    refine (Scan.ensures_bytes size.toNat).map ?_
    intro taken text h
    obtain ⟨rfl, hlen⟩ := h
    refine ⟨rfl, ?_, ?_⟩
    · intro _ h
      cases h
      have := size.toNat_lt
      simp only [maxWord]
      omega
    · simp [body, hlen]
  | integer =>
    refine Scan.ensures_word32.map ?_
    intro bytes w h
    subst h
    exact ⟨rfl, fits_of_kind_ne (by simp [Constant.kind]), by simp [body]⟩
  | long =>
    refine Scan.ensures_word64.map ?_
    intro bytes w h
    subst h
    exact ⟨rfl, fits_of_kind_ne (by simp [Constant.kind]), by simp [body]⟩
  | float =>
    refine Scan.ensures_word32.map ?_
    intro bytes w h
    subst h
    exact ⟨rfl, fits_of_kind_ne (by simp [Constant.kind]), rfl⟩
  | double =>
    refine Scan.ensures_word64.map ?_
    intro bytes w h
    subst h
    exact ⟨rfl, fits_of_kind_ne (by simp [Constant.kind]), rfl⟩
  | methodHandle =>
    refine Scan.ensures_byte.bind ?_
    intro front kind h
    subst h
    refine Scan.ensures_word16.map ?_
    intro back i h
    subst h
    exact ⟨rfl, fits_of_kind_ne (by simp [Constant.kind]), rfl⟩
  | classInfo | string | methodType | moduleInfo | packageInfo =>
    refine Scan.ensures_word16.map ?_
    intro bytes i h
    subst h
    exact ⟨rfl, fits_of_kind_ne (by simp [Constant.kind]), rfl⟩
  | fieldRef | methodRef | interfaceMethodRef | nameAndType | dynamic | invokeDynamic =>
    refine Scan.ensures_word16.bind ?_
    intro front i h
    subst h
    refine Scan.ensures_word16.map ?_
    intro back j h
    subst h
    exact ⟨rfl, fits_of_kind_ne (by simp [Constant.kind]), rfl⟩

theorem ensures_scan (index : UInt16) :
    Scan.Ensures (scan index) fun bytes c => c.Fits ∧ bytes = c.written := by
  refine Scan.ensures_byte.bind ?_
  intro front tag h
  subst h
  split
  · next kind hkind =>
    refine (ensures_scanBody kind).mono ?_
    intro bytes c h
    obtain ⟨rfl, hfits, rfl⟩ := h
    refine ⟨hfits, ?_⟩
    rw [written, Constant.tag, ConstantKind.tag_of_ofTag? hkind]
    rfl
  · exact Scan.ensures_throw _ _

end Constant

namespace ConstantPool

/-! ## The slots -/

/-- The pool with further entries at its end. -/
def pushAll (pool : ConstantPool) (cs : List Constant) : ConstantPool := cs.foldl push pool

theorem slots_pushAll (pool : ConstantPool) (cs : List Constant) :
    (pool.pushAll cs).slots.toList = pool.slots.toList ++ cs.flatMap Constant.slots := by
  induction cs generalizing pool with
  | nil => simp [pushAll]
  | cons c cs ih =>
    have hstep : pool.pushAll (c :: cs) = (pool.push c).pushAll cs := rfl
    rw [hstep, ih, slots_push, List.flatMap_cons, ← Constant.slots, List.append_assoc]

theorem eq_of_slots_eq {p q : ConstantPool} (h : p.slots.toList = q.slots.toList) : p = q := by
  cases p
  cases q
  simpa using h

/-- A pool that is laid out is the empty pool with entries added to it. -/
theorem isLaidOut_iff {pool : ConstantPool} : pool.IsLaidOut ↔ ∃ cs, pool = empty.pushAll cs := by
  constructor
  · intro h
    obtain ⟨cs, hcs⟩ := h
    refine ⟨cs, eq_of_slots_eq ?_⟩
    rw [slots_pushAll, hcs]
    rfl
  · intro h
    obtain ⟨cs, rfl⟩ := h
    exact ⟨cs, slots_pushAll empty cs⟩

theorem map_snd_entries_pushAll (cs : List Constant) :
    (empty.pushAll cs).entries.map (·.2) = cs := by
  rw [map_snd_entries, slots_pushAll]
  change (cs.flatMap Constant.slots).filterMap id = cs
  induction cs with
  | nil => rfl
  | cons c cs ih =>
    rw [List.flatMap_cons, List.filterMap_append, ih]
    unfold Constant.slots Constant.width
    split <;> simp

theorem length_slots (c : Constant) : c.slots.length = c.width := by
  unfold Constant.slots Constant.width
  split <;> rfl

theorem one_le_width (c : Constant) : 1 ≤ c.width := by
  unfold Constant.width
  split <;> omega

/-- Filling slots takes one entry after another, as long as there is room for it. -/
theorem scanSlots_succ (n : Nat) (pool : ConstantPool) :
    scanSlots (n + 1) pool = Constant.scan (UInt16.ofNat pool.size) >>= fun c =>
      if n + 1 < c.width then throw (.invalidConstant (UInt16.ofNat pool.size) .wideInLastSlot)
      else scanSlots (n + 1 - c.width) (pool.push c) := by
  cases n with
  | zero =>
    rw [scanSlots]
    congr 1
    funext c
    by_cases hw : c.isWide = true
    · simp [Constant.width, hw]
    · simp [Constant.width, hw, scanSlots]
  | succ n =>
    rw [scanSlots]
    congr 1
    funext c
    by_cases hw : c.isWide = true
    · rw [if_pos hw, Constant.width, if_pos hw, if_neg (by omega)]
      rfl
    · simp [Constant.width, hw]

theorem reads_scanSlots {cs : List Constant} (h : ∀ c ∈ cs, c.Fits) (pool : ConstantPool) :
    Scan.Reads (scanSlots (cs.flatMap Constant.slots).length pool)
      (cs.flatMap Constant.written) (pool.pushAll cs) := by
  induction cs generalizing pool with
  | nil => exact Scan.reads_pure pool
  | cons c cs ih =>
    have hw := one_le_width c
    have hlen : ((c :: cs).flatMap Constant.slots).length
        = (cs.flatMap Constant.slots).length + (c.width - 1) + 1 := by
      rw [List.flatMap_cons, List.length_append, length_slots]
      omega
    rw [hlen, scanSlots_succ, List.flatMap_cons]
    refine (Constant.reads_scan (h c (by simp)) _).bind ?_
    rw [if_neg (by omega), show (cs.flatMap Constant.slots).length + (c.width - 1) + 1 - c.width
      = (cs.flatMap Constant.slots).length by omega]
    exact ih (fun c' hc' => h c' (by simp [hc'])) (pool.push c)

/-- Slots are filled by entries that fit, from the bytes of those entries. -/
theorem ensures_scanSlots (n : Nat) (pool : ConstantPool) :
    Scan.Ensures (scanSlots n pool) fun bytes filled =>
      ∃ cs : List Constant, filled = pool.pushAll cs ∧ (∀ c ∈ cs, c.Fits)
        ∧ bytes = cs.flatMap Constant.written ∧ (cs.flatMap Constant.slots).length = n := by
  induction n using Nat.strongRecOn generalizing pool with
  | ind n ih =>
    cases n with
    | zero => exact Scan.ensures_pure ⟨[], rfl, by simp, rfl, rfl⟩
    | succ n =>
      rw [scanSlots_succ]
      refine (Constant.ensures_scan _).bind ?_
      intro front c h
      obtain ⟨hfits, rfl⟩ := h
      split
      · exact Scan.ensures_throw _ _
      · next hroom =>
        have hw := one_le_width c
        refine (ih (n + 1 - c.width) (by omega) (pool.push c)).mono ?_
        intro bytes filled h
        obtain ⟨cs, rfl, hcs, rfl, hlen⟩ := h
        refine ⟨c :: cs, rfl, by simpa using ⟨hfits, hcs⟩, by rw [List.flatMap_cons], ?_⟩
        rw [List.flatMap_cons, List.length_append, length_slots, hlen]
        omega

/-! ## The whole pool -/

theorem textsFit_iff {pool : ConstantPool} :
    pool.TextsFit ↔ ∀ c ∈ pool.entries.map (·.2), c.Fits :=
  ⟨fun h _ hc bytes hb => h bytes (hb ▸ hc), fun h bytes hb => h _ hb bytes rfl⟩

theorem mapM_segment_eq_ok_iff {entries : List (UInt16 × Constant)} {parts : List Bytes} :
    entries.mapM (fun entry => entry.2.segment) = .ok parts ↔
      (∀ c ∈ entries.map (·.2), c.Fits) ∧ parts = (entries.map (·.2)).map Constant.written := by
  induction entries generalizing parts with
  | nil =>
    rw [except_mapM_eq_ok_iff, List.forall₂_nil_left_iff]
    simp
  | cons e entries ih =>
    simp only [except_mapM_eq_ok_iff] at ih ⊢
    rw [List.forall₂_cons_left_iff, List.map_cons, List.forall_mem_cons, List.map_cons]
    constructor
    · intro h
      obtain ⟨part, parts', hpart, hparts, rfl⟩ := h
      obtain ⟨he, rfl⟩ := Constant.segment_eq_ok_iff.1 hpart
      obtain ⟨hes, rfl⟩ := ih.1 hparts
      exact ⟨⟨he, hes⟩, rfl⟩
    · intro h
      obtain ⟨⟨he, hes⟩, rfl⟩ := h
      exact ⟨_, _, Constant.segment_eq_ok_iff.2 ⟨he, rfl⟩, ih.2 ⟨hes, rfl⟩, rfl⟩

/-- What a pool is written as, if it can be. -/
theorem segment_eq_ok_iff {pool : ConstantPool} {bytes : Bytes} :
    pool.segment = .ok bytes ↔
      pool.size ≤ maxWord ∧ pool.TextsFit ∧
        bytes = BigEndian.ofUInt16 (UInt16.ofNat pool.size)
          ++ (pool.entries.map (·.2)).flatMap Constant.written := by
  rw [segment, except_bind_eq_ok_iff, textsFit_iff]
  simp only [except_bind_eq_ok_iff, mapM_segment_eq_ok_iff, Interning.tableCount_eq_ok_iff]
  constructor
  · intro h
    obtain ⟨count, ⟨hsize, rfl⟩, parts, ⟨hfit, rfl⟩, hbytes⟩ := h
    exact ⟨hsize, hfit, by rw [← Except.ok.inj hbytes, List.flatMap_def]⟩
  · intro h
    obtain ⟨hsize, hfit, rfl⟩ := h
    exact ⟨_, ⟨hsize, rfl⟩, _, ⟨hfit, rfl⟩, by rw [List.flatMap_def]; rfl⟩

/-- A pool that is laid out comes back from its segment. -/
theorem reads_scan {pool : ConstantPool} {bytes : Bytes} (hlaid : pool.IsLaidOut)
    (h : pool.segment = .ok bytes) : Scan.Reads scan bytes pool := by
  obtain ⟨hsize, hfit, rfl⟩ := segment_eq_ok_iff.1 h
  obtain ⟨cs, rfl⟩ := isLaidOut_iff.1 hlaid
  rw [textsFit_iff, map_snd_entries_pushAll] at hfit
  rw [map_snd_entries_pushAll]
  have hlen : (empty.pushAll cs).size - 1 = (cs.flatMap Constant.slots).length := by
    rw [size_eq_length, slots_pushAll, List.length_append]
    exact Nat.add_sub_cancel_left _ _
  refine (Scan.reads_word16 _).bind ?_
  rw [Scan.toNat_tableCount hsize, hlen]
  exact reads_scanSlots hfit empty

/-- A pool that was read has the slots that its count announces, slot 0 in any case, and was read
from this count and its entries. -/
theorem ensures_scan_announced : Scan.Ensures scan fun bytes pool =>
    pool.IsLaidOut ∧ pool.TextsFit ∧ ∃ count : UInt16, pool.size = count.toNat - 1 + 1
      ∧ bytes = BigEndian.ofUInt16 count ++ (pool.entries.map (·.2)).flatMap Constant.written := by
  refine Scan.ensures_word16.bind ?_
  intro front count h
  subst h
  refine (ensures_scanSlots (count.toNat - 1) empty).mono ?_
  intro bytes pool h
  obtain ⟨cs, rfl, hcs, rfl, hlen⟩ := h
  have hsize : (empty.pushAll cs).size = count.toNat - 1 + 1 := by
    rw [size_eq_length, slots_pushAll, List.length_append, hlen, Nat.add_comm]
    rfl
  have hfits : (empty.pushAll cs).TextsFit := by
    rwa [textsFit_iff, map_snd_entries_pushAll]
  exact ⟨isLaidOut_iff.2 ⟨cs, rfl⟩, hfits, count, hsize, by rw [map_snd_entries_pushAll]⟩

/-- A pool that was read is laid out and fits, and is written as the bytes that it was read from,
unless it has no entries. -/
theorem ensures_scan : Scan.Ensures scan fun bytes pool =>
    pool.IsLaidOut ∧ pool.size ≤ maxWord ∧ pool.TextsFit ∧
      (1 < pool.size → pool.segment = .ok bytes) := by
  refine ensures_scan_announced.mono ?_
  intro bytes pool h
  obtain ⟨hlaid, hfits, count, hsize, rfl⟩ := h
  have hcount := count.toNat_lt
  have hmax : pool.size ≤ maxWord := by
    simp only [maxWord]
    omega
  refine ⟨hlaid, hmax, hfits, fun hone => segment_eq_ok_iff.2 ⟨hmax, hfits, ?_⟩⟩
  rw [show pool.size = count.toNat by omega, UInt16.ofNat_toNat]

end ConstantPool

end AnnotationGraft
