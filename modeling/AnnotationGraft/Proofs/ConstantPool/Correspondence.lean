import AnnotationGraft.Proofs.ConstantPool.Layout

/-!
# Pools and the bytes they are written as

Reading and writing a pool undo each other in both directions.  `HasShape` says which pools take
part, slot by slot: slot 0 is empty, and so is the slot after each wide entry, and no other.  These
are the pools that are laid out entry by entry (`isLaidOut_iff_hasShape`).

A pool of this shape that can be written comes back from what is written of it, and whatever is read
has this shape and is written as the bytes that it was read from: `scan_inverts_segment`.  A text
entry is its bytes for both, be they modified UTF-8 or not.
-/

namespace AnnotationGraft

namespace ConstantPool

/-- Slot 0 and the slots after wide entries are empty, and no others. -/
structure HasShape (pool : ConstantPool) : Prop where
  first : pool.slots.toList[0]? = some none
  afterWide : ∀ {j c}, pool.slots.toList[j]? = some (some c) →
    (c.kind = .long ∨ c.kind = .double) → pool.slots.toList[j + 1]? = some none
  noOther : ∀ {k}, pool.slots.toList[k]? = some none → k = 0 ∨ ∃ j c, k = j + 1
    ∧ pool.slots.toList[j]? = some (some c) ∧ (c.kind = .long ∨ c.kind = .double)

theorem IsLaidOut.hasShape {pool : ConstantPool} (h : pool.IsLaidOut) : pool.HasShape where
  first := h.getElem?_eq_none_iff.2 (.inl rfl)
  afterWide hc hwide := h.getElem?_eq_none_iff.2 (.inr ⟨_, _, rfl, hc, hwide⟩)
  noOther hnone := h.getElem?_eq_none_iff.1 hnone

/-- Slots of which those after wide entries are empty, and no others, are the slots of entries one
after another. -/
theorem exists_eq_flatMap_slots (slots : List (Option Constant))
    (hafter : ∀ j c, slots[j]? = some (some c) → c.isWide = true → slots[j + 1]? = some none)
    (hother : ∀ k, slots[k]? = some none →
      ∃ j c, k = j + 1 ∧ slots[j]? = some (some c) ∧ c.isWide = true) :
    ∃ cs : List Constant, slots = cs.flatMap Constant.slots := by
  match slots with
  | [] => exact ⟨[], rfl⟩
  | none :: slots =>
    obtain ⟨j, c, hj, -, -⟩ := hother 0 rfl
    cases hj
  | some c :: slots =>
    by_cases hwide : c.isWide = true
    · -- The entry has an empty slot after it, and the others stand two slots further back.
      obtain ⟨rest, rfl⟩ : ∃ rest, slots = none :: rest := by
        have hnext := hafter 0 c rfl hwide
        cases slots with
        | nil => cases hnext
        | cons slot rest => exact ⟨rest, by rw [Option.some.inj hnext]⟩
      obtain ⟨cs, rfl⟩ := exists_eq_flatMap_slots rest (fun j d hd hw => hafter (j + 2) d hd hw)
        fun k hk => by
          obtain ⟨j, d, hj, hd, hw⟩ := hother (k + 2) hk
          obtain rfl : j = k + 1 := by omega
          cases k with
          | zero => cases hd
          | succ k => exact ⟨k, d, rfl, hd, hw⟩
      exact ⟨c :: cs, by simp [Constant.slots, Constant.width, hwide]⟩
    · obtain ⟨cs, rfl⟩ := exists_eq_flatMap_slots slots (fun j d hd hw => hafter (j + 1) d hd hw)
        fun k hk => by
          obtain ⟨j, d, hj, hd, hw⟩ := hother (k + 1) hk
          obtain rfl : j = k := by omega
          cases j with
          | zero =>
            obtain rfl : c = d := Option.some.inj (Option.some.inj hd)
            exact absurd hw hwide
          | succ j => exact ⟨j, d, rfl, hd, hw⟩
      exact ⟨c :: cs, by simp [Constant.slots, Constant.width, hwide]⟩

/-- The shape of a pool, slot by slot and entry by entry. -/
theorem isLaidOut_iff_hasShape {pool : ConstantPool} : pool.IsLaidOut ↔ pool.HasShape := by
  refine ⟨IsLaidOut.hasShape, fun h => ?_⟩
  obtain ⟨hfirst, hafter, hother⟩ := h
  obtain ⟨slots, hslots⟩ := List.head?_eq_some_iff.1 (List.head?_eq_getElem?.trans hfirst)
  rw [hslots] at hafter hother
  obtain ⟨cs, rfl⟩ := exists_eq_flatMap_slots slots
    (fun j c hc hwide => hafter (j := j + 1) hc (Constant.isWide_iff.1 hwide)) fun k hk => by
      rcases hother (k := k + 1) hk with hzero | ⟨j, c, hj, hc, hwide⟩
      · cases hzero
      · obtain rfl : j = k := by omega
        cases j with
        | zero => cases hc
        | succ j => exact ⟨j, c, rfl, hc, Constant.isWide_iff.2 hwide⟩
  exact ⟨cs, hslots⟩

/-! ## Both directions -/

/-- A pool of the shape comes back from what is written of it, whatever follows. -/
theorem scan_of_segment {pool : ConstantPool} (hshape : pool.HasShape)
    (hsize : pool.size ≤ maxWord) (hfits : pool.TextsFit) :
    ∃ bytes, pool.segment = .ok bytes
      ∧ ∀ rest n, scan ⟨bytes ++ rest, n⟩ = .ok (pool, ⟨rest, n + bytes.length⟩) := by
  have hsegment := segment_eq_ok_iff.2 ⟨hsize, hfits, rfl⟩
  exact ⟨_, hsegment, reads_scan (isLaidOut_iff_hasShape.2 hshape) hsegment⟩

/-- Where the count is not 0, the pool that was read has as many slots as the count says, and is
written as the bytes that it was read from. -/
theorem segment_of_scan {b1 b0 : UInt8} {rest : Bytes} {n : Nat} {pool : ConstantPool}
    {after : Input} (hcount : 1 ≤ b1.toNat * 256 + b0.toNat)
    (h : scan ⟨b1 :: b0 :: rest, n⟩ = .ok (pool, after)) :
    pool.size = b1.toNat * 256 + b0.toNat ∧ pool.HasShape ∧ pool.TextsFit
      ∧ ∃ bytes, pool.segment = .ok bytes ∧ b1 :: b0 :: rest = bytes ++ after.rest
        ∧ after.offset = n + bytes.length := by
  obtain ⟨bytes, hbytes, hlaid, hfits, count, hsize, rfl⟩ := ensures_scan_announced _ _ _ h
  have hword : count.toNat = b1.toNat * 256 + b0.toNat := by
    rw [BigEndian.ofUInt16] at hbytes
    obtain ⟨rfl, htail⟩ := List.cons.inj hbytes
    obtain ⟨rfl, -⟩ := List.cons.inj htail
    have hlt := count.toNat_lt
    simp only [UInt8.toNat_ofNat']
    omega
  rw [hword, Nat.sub_add_cancel hcount] at hsize
  have hmax : pool.size ≤ maxWord := by
    have hlt := count.toNat_lt
    simp only [maxWord]
    omega
  have hsegment := segment_eq_ok_iff.2 ⟨hmax, hfits, rfl⟩
  rw [hsize, ← hword, UInt16.ofNat_toNat] at hsegment
  have hread := reads_scan hlaid hsegment after.rest n
  rw [← hbytes, h] at hread
  exact ⟨hsize, isLaidOut_iff_hasShape.1 hlaid, hfits, _, hsegment, hbytes,
    congrArg (·.2.offset) (Except.ok.inj hread)⟩

/-- Reading undoes writing for every pool of the shape that can be written, whatever follows what is
written.  Writing undoes reading for whatever bytes are read, if their count is not 0. -/
theorem scan_inverts_segment :
    (∀ pool : ConstantPool, pool.HasShape → pool.size ≤ maxWord → pool.TextsFit →
      ∃ bytes, pool.segment = .ok bytes
        ∧ ∀ rest n, scan ⟨bytes ++ rest, n⟩ = .ok (pool, ⟨rest, n + bytes.length⟩))
      ∧ ∀ (b1 b0 : UInt8) (rest : Bytes) (n : Nat) (pool : ConstantPool) (after : Input),
        1 ≤ b1.toNat * 256 + b0.toNat → scan ⟨b1 :: b0 :: rest, n⟩ = .ok (pool, after) →
        pool.size = b1.toNat * 256 + b0.toNat ∧ pool.HasShape ∧ pool.TextsFit
          ∧ ∃ bytes, pool.segment = .ok bytes ∧ b1 :: b0 :: rest = bytes ++ after.rest
            ∧ after.offset = n + bytes.length :=
  ⟨fun _ hshape hsize hfits => scan_of_segment hshape hsize hfits,
    fun _ _ _ _ _ _ hcount h => segment_of_scan hcount h⟩

/-- A pool with a wide entry, and a text that is no modified UTF-8. -/
def wideAndBroken : ConstantPool := ⟨#[none, some (.long 5), none, some (.utf8 [0xFF])]⟩

/-- It is written and comes back, with a byte left over, and the bytes are written again. -/
theorem scan_wideAndBroken :
    ∃ bytes, wideAndBroken.segment = .ok bytes
      ∧ scan ⟨bytes ++ [7], 8⟩ = .ok (wideAndBroken, ⟨[7], 8 + bytes.length⟩)
      ∧ ∃ written, wideAndBroken.segment = .ok written
        ∧ [0, 4, 5, 0, 0, 0, 0, 0, 0, 0, 5, 1, 0, 1, 0xFF, 7] = written ++ [7] := by
  have hshape : wideAndBroken.HasShape := IsLaidOut.hasShape ⟨[.long 5, .utf8 [0xFF]], rfl⟩
  have hfits : wideAndBroken.TextsFit := by
    intro bytes hbytes
    obtain rfl : bytes = [0xFF] := by
      simpa [wideAndBroken, map_snd_entries] using hbytes
    decide
  obtain ⟨hwritten, hread⟩ := scan_inverts_segment
  obtain ⟨bytes, hbytes, hback⟩ := hwritten wideAndBroken hshape (by decide) hfits
  obtain ⟨-, -, -, written, hagain, hrest, -⟩ := hread 0 4
    [5, 0, 0, 0, 0, 0, 0, 0, 5, 1, 0, 1, 0xFF, 7] 0 wideAndBroken ⟨[7], 15⟩ (by decide)
    (by decide +kernel)
  exact ⟨bytes, hbytes, hback [7] 8, written, hagain, hrest⟩

end ConstantPool

end AnnotationGraft
