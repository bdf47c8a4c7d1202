import AnnotationGraft.Proofs.Text.ShortestForm

/-!
# Which bytes are a text

`ModifiedUtf8.decode` reads exactly the byte sequences that split into groups whose units spell a
text, and the text is the one that they spell (`decode_eq_some_iff`).  `Utf16.Spells` says what
units spell in terms of their numbers alone.

A text is written with the shortest group of each unit.  So it is written as it was read exactly
when it was read from such groups (`encode_eq_iff_isShortest`), and never with more bytes.
-/

namespace AnnotationGraft

namespace Utf16

/-- Units that spell characters: a character has the number of its unit, or is made of the ten low
bits of each half of a pair of surrogates. -/
inductive Spells : List UInt16 → List Char → Prop
  /-- No units spell no characters. -/
  | nil : Spells [] []
  /-- No character has the number of a surrogate, so a surrogate does not stand alone. -/
  | unit {u : UInt16} {c : Char} {units : List UInt16} {cs : List Char} (hc : c.toNat = u.toNat)
      (rest : Spells units cs) : Spells (u :: units) (c :: cs)
  /-- The high surrogate of a pair comes first. -/
  | pair {u v : UInt16} {c : Char} {units : List UInt16} {cs : List Char}
      (hu : 0xD800 ≤ u.toNat ∧ u.toNat ≤ 0xDBFF) (hv : 0xDC00 ≤ v.toNat ∧ v.toNat ≤ 0xDFFF)
      (hc : c.toNat = 0x10000 + (u.toNat - 0xD800) * 0x400 + (v.toNat - 0xDC00))
      (rest : Spells units cs) : Spells (u :: v :: units) (c :: cs)

theorem spells_ofChar_append {c : Char} {units : List UInt16} {cs : List Char}
    (h : Spells units cs) : Spells (ofChar c ++ units) (c :: cs) := by
  have hvalid := toNat_char_cases c
  unfold ofChar
  split
  · next hc =>
    refine .unit ?_ h
    rw [UInt16.toNat_ofNat']
    exact (Nat.mod_eq_of_lt hc).symm
  · refine .pair ?_ ?_ ?_ h <;> simp only [UInt16.toNat_ofNat'] <;> omega

theorem Spells.encode_eq {units : List UInt16} {cs : List Char} (h : Spells units cs) :
    encode cs = units := by
  induction h with
  | nil => rfl
  | @unit u c units cs hc rest ih =>
    have hu := u.toNat_lt
    rw [encode, List.flatMap_cons, ← encode, ih, ofChar, if_pos (by omega), hc,
      UInt16.ofNat_toNat, List.singleton_append]
  | @pair u v c units cs hu hv hc rest ih =>
    have hhigh : 0xD800 + (c.toNat - 0x10000) / 0x400 = u.toNat := by omega
    have hlow : 0xDC00 + (c.toNat - 0x10000) % 0x400 = v.toNat := by omega
    rw [encode, List.flatMap_cons, ← encode, ih, ofChar, if_neg (by omega), hhigh, hlow,
      UInt16.ofNat_toNat, UInt16.ofNat_toNat, List.cons_append, List.singleton_append]

theorem spells_encode (cs : List Char) : Spells (encode cs) cs := by
  induction cs with
  | nil => exact .nil
  | cons c cs ih => exact spells_ofChar_append ih

/-- Units are read as the characters that they spell. -/
theorem decode_eq_some_iff_spells {units : List UInt16} {cs : List Char} :
    decode units = some cs ↔ Spells units cs := by
  constructor
  · intro h
    rw [← encode_eq_of_decode h]
    exact spells_encode cs
  · intro h
    rw [← h.encode_eq, decode_encode]

end Utf16

namespace ModifiedUtf8

variable {bytes : Bytes} {s : String} {groups : List Group}

/-- A text is read from the groups whose units spell it. -/
theorem decode_eq_some_iff : decode bytes = some s ↔
    ∃ groups : List Group, groups.flatMap Group.bytes = bytes
      ∧ Utf16.Spells (groups.map Group.unit) s.toList := by
  constructor
  · intro h
    obtain ⟨groups, hgroups⟩ := exists_groups_of_decode h
    refine ⟨groups, hgroups, ?_⟩
    rw [map_unit_of_decode h hgroups]
    exact Utf16.spells_encode s.toList
  · rintro ⟨groups, rfl, hspells⟩
    rw [decode_eq_decodeGroups, decodeGroups, units?_groups, Option.bind_some,
      Utf16.decode_eq_some_iff_spells.2 hspells, Option.map_some, String.ofList_toList]

/-- The bytes that are written for the units of groups are those of the groups exactly when each is
the shortest of its unit. -/
theorem flatMap_unitBytes_eq_iff (groups : List Group) :
    (groups.map Group.unit).flatMap unitBytes = groups.flatMap Group.bytes ↔
      ∀ g ∈ groups, g.IsShortest := by
  induction groups with
  | nil => simp
  | cons g groups ih =>
    rw [List.map_cons, List.flatMap_cons, List.flatMap_cons, List.forall_mem_cons, ← ih,
      Group.isShortest_iff]
    constructor
    · intro h
      -- No part grows, so no part may shrink either.
      have hlength : (unitBytes g.unit).length = g.bytes.length := by
        have hsum := congrArg List.length h
        have hhead := length_unitBytes_le g
        have htail := length_flatMap_unitBytes_le groups
        rw [List.length_append, List.length_append] at hsum
        omega
      exact List.append_inj h hlength
    · rintro ⟨hhead, htail⟩
      rw [hhead, htail]

/-- A text is written as it was read exactly when it was read from shortest groups. -/
theorem encode_eq_iff_isShortest (h : decode bytes = some s)
    (hgroups : groups.flatMap Group.bytes = bytes) :
    encode s = bytes ↔ ∀ g ∈ groups, g.IsShortest := by
  rw [encode, ← map_unit_of_decode h hgroups, ← hgroups]
  exact flatMap_unitBytes_eq_iff groups

/-- Bytes are read as a text exactly when they split into groups whose units spell it, and ASCII
bytes are no exception.  The text is never written in more bytes, and it is written in the same ones
exactly when every group is the shortest of its unit. -/
theorem decode_iff_groups_and_encode (bytes : Bytes) :
    (∀ s, decode bytes = some s ↔
        ∃ groups : List Group, groups.flatMap Group.bytes = bytes
          ∧ Utf16.Spells (groups.map Group.unit) s.toList)
      ∧ decode bytes = decodeGroups bytes
      ∧ ∀ s, decode bytes = some s →
          (encode s).length ≤ bytes.length
            ∧ ∀ groups : List Group, groups.flatMap Group.bytes = bytes →
                (encode s = bytes ↔ ∀ g ∈ groups, g.IsShortest) :=
  ⟨fun _ => decode_eq_some_iff, decode_eq_decodeGroups bytes, fun _ h =>
    ⟨length_encode_le_of_decode h, fun _ => encode_eq_iff_isShortest h⟩⟩

/-- Groups of one, two and three bytes, the second longer than it need be, and the last two of a
supplementary character. -/
def mixedGroups : List Group :=
  [.one 0x61 (by decide), .two 0xC1 0x81 (by decide) (by decide),
    .three 0xED 0xA0 0xBD (by decide) (by decide) (by decide),
    .three 0xED 0xB8 0x80 (by decide) (by decide) (by decide)]

/-- The groups are read as a text that is written in fewer bytes, for one of them is not the
shortest. -/
theorem decode_mixedGroups : decode (mixedGroups.flatMap Group.bytes) = some "aA😀"
    ∧ (∃ groups : List Group,
        groups.flatMap Group.bytes = mixedGroups.flatMap Group.bytes
          ∧ Utf16.Spells (groups.map Group.unit) "aA😀".toList)
    ∧ (encode "aA😀").length ≤ (mixedGroups.flatMap Group.bytes).length
    ∧ ¬ ∀ g ∈ mixedGroups, g.IsShortest := by
  obtain ⟨hiff, -, hwritten⟩ := decode_iff_groups_and_encode (mixedGroups.flatMap Group.bytes)
  have hdecode : decode (mixedGroups.flatMap Group.bytes) = some "aA😀" := by decide
  obtain ⟨hlength, hshortest⟩ := hwritten "aA😀" hdecode
  have hchanged : encode "aA😀" ≠ mixedGroups.flatMap Group.bytes := by decide
  exact ⟨hdecode, (hiff "aA😀").1 hdecode, hlength, fun h =>
    hchanged ((hshortest mixedGroups rfl).2 h)⟩

end ModifiedUtf8

end AnnotationGraft
