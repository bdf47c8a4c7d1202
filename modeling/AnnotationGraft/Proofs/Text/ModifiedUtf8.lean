import AnnotationGraft.Proofs.Text.Groups
import Mathlib.Data.List.Basic

/-!
# Texts come back from their bytes

`ModifiedUtf8.decode` undoes `ModifiedUtf8.encode`.  The proof goes unit by unit and then character
by character: the bytes of one unit are one group (`exists_group_unitBytes`), and the units of one
character are one unit that is no surrogate, or a pair of surrogates (`decodeOnto_ofChar`).

Bytes that are all ASCII are read without a look for groups.  They are the bytes of the text for
which they are taken, in plain UTF-8 (`toByteArray_asciiText`) as in the modified one
(`encode_asciiText`), so a look for groups would have given the same (`decode_eq_decodeGroups`).
-/

namespace AnnotationGraft

namespace Utf16

/-- The character of a number outside the range of the surrogates. -/
theorem toNat_ofNat {n : Nat} (h : n < 0xD800 ∨ 0xDFFF < n ∧ n < 0x110000) :
    (Char.ofNat n).toNat = n := by
  have hvalid : n.isValidChar := h
  rw [Char.ofNat, dif_pos hvalid]
  rfl

/-- The number of a character is outside the range of the surrogates. -/
theorem toNat_char_cases (c : Char) :
    c.toNat < 0xD800 ∨ 0xDFFF < c.toNat ∧ c.toNat < 0x110000 := c.valid

/-- A character below U+10000 is its own unit, and that unit is no surrogate. -/
theorem decodeOnto_ofChar_of_lt {c : Char} (hc : c.toNat < 0x10000) (done : List Char)
    (rest : List UInt16) : decodeOnto done (ofChar c ++ rest) = decodeOnto (c :: done) rest := by
  have hunit : (UInt16.ofNat c.toNat).toNat = c.toNat := by
    rw [UInt16.toNat_ofNat']
    exact Nat.mod_eq_of_lt hc
  have hvalid := toNat_char_cases c
  have hhigh : isHighSurrogate (UInt16.ofNat c.toNat) = false := by
    simp only [isHighSurrogate, hunit, Bool.and_eq_false_iff, decide_eq_false_iff_not]
    omega
  have hlow : isLowSurrogate (UInt16.ofNat c.toNat) = false := by
    simp only [isLowSurrogate, hunit, Bool.and_eq_false_iff, decide_eq_false_iff_not]
    omega
  rw [ofChar, if_pos hc, List.singleton_append, decodeOnto.eq_def]
  simp only [hhigh, hlow, Bool.false_eq_true, if_false, hunit, Char.ofNat_toNat]

/-- A supplementary character is a pair of surrogates that stands for it. -/
theorem decodeOnto_ofChar_of_le {c : Char} (hc : 0x10000 ≤ c.toNat) (done : List Char)
    (rest : List UInt16) : decodeOnto done (ofChar c ++ rest) = decodeOnto (c :: done) rest := by
  have hlt : c.toNat < 0x110000 := by
    have := toNat_char_cases c
    omega
  have hhighNat : (UInt16.ofNat (0xD800 + (c.toNat - 0x10000) / 0x400)).toNat
      = 0xD800 + (c.toNat - 0x10000) / 0x400 := by
    rw [UInt16.toNat_ofNat']
    exact Nat.mod_eq_of_lt (by omega)
  have hlowNat : (UInt16.ofNat (0xDC00 + (c.toNat - 0x10000) % 0x400)).toNat
      = 0xDC00 + (c.toNat - 0x10000) % 0x400 := by
    rw [UInt16.toNat_ofNat']
    exact Nat.mod_eq_of_lt (by omega)
  have hhigh : isHighSurrogate (UInt16.ofNat (0xD800 + (c.toNat - 0x10000) / 0x400)) = true := by
    simp only [isHighSurrogate, hhighNat, Bool.and_eq_true, decide_eq_true_eq]
    omega
  have hlow : isLowSurrogate (UInt16.ofNat (0xDC00 + (c.toNat - 0x10000) % 0x400)) = true := by
    simp only [isLowSurrogate, hlowNat, Bool.and_eq_true, decide_eq_true_eq]
    omega
  have hpair : ofPair (UInt16.ofNat (0xD800 + (c.toNat - 0x10000) / 0x400))
      (UInt16.ofNat (0xDC00 + (c.toNat - 0x10000) % 0x400)) = c := by
    rw [ofPair, hhighNat, hlowNat]
    have hsum : 0x10000 + (0xD800 + (c.toNat - 0x10000) / 0x400 - 0xD800) * 0x400
        + (0xDC00 + (c.toNat - 0x10000) % 0x400 - 0xDC00) = c.toNat := by omega
    rw [hsum, Char.ofNat_toNat]
  rw [ofChar, if_neg (by omega), List.cons_append, List.singleton_append, decodeOnto]
  simp only [hhigh, hlow, hpair, if_true]

theorem decodeOnto_ofChar (c : Char) (done : List Char) (rest : List UInt16) :
    decodeOnto done (ofChar c ++ rest) = decodeOnto (c :: done) rest := by
  rcases Nat.lt_or_ge c.toNat 0x10000 with hc | hc
  · exact decodeOnto_ofChar_of_lt hc done rest
  · exact decodeOnto_ofChar_of_le hc done rest

theorem decodeOnto_encode (cs done : List Char) :
    decodeOnto done (encode cs) = some (done.reverse ++ cs) := by
  induction cs generalizing done with
  | nil => simp [encode, decodeOnto]
  | cons c cs ih =>
    rw [encode, List.flatMap_cons, decodeOnto_ofChar, ← encode, ih]
    simp

theorem decode_encode (cs : List Char) : decode (encode cs) = some cs :=
  decodeOnto_encode cs []

end Utf16

namespace ModifiedUtf8

/-- A text comes back from the groups of its bytes. -/
theorem decodeGroups_encode (s : String) : decodeGroups (encode s) = some s := by
  obtain ⟨groups, hgroups, hunits⟩ := exists_groups_unitBytes (Utf16.encode s.toList)
  rw [encode, ← hgroups, decodeGroups, units?_groups, hunits, Option.bind_some,
    Utf16.decode_encode, Option.map_some, String.ofList_toList]

theorem isAscii_eq_true_iff {bytes : Bytes} :
    isAscii bytes = true ↔ ∀ b ∈ bytes, b.toNat ≠ 0 ∧ b.toNat < 0x80 := by
  simp only [isAscii, List.all_eq_true, Bool.and_eq_true, decide_eq_true_eq]

/-- ASCII bytes are the plain UTF-8 form of the text for which they are taken. -/
theorem toByteArray_asciiText {bytes : Bytes} (h : isAscii bytes = true) :
    (asciiText bytes).toByteArray = bytes.toByteArray := by
  have hbyte : ∀ b ∈ bytes, String.utf8EncodeChar (Char.ofNat b.toNat) = [b] := by
    intro b hb
    have hlt := (isAscii_eq_true_iff.1 h b hb).2
    have hval : (Char.ofNat b.toNat).val.toNat = b.toNat := Utf16.toNat_ofNat (.inl (by omega))
    rw [String.utf8EncodeChar]
    simp only [hval, show b.toNat ≤ 0x7F by omega, if_true, UInt8.ofNat_toNat]
  show List.utf8Encode _ = _
  rw [List.utf8Encode, List.flatMap_map, List.flatMap_congr hbyte, List.flatMap_singleton']

/-- An ASCII character is written as its number. -/
theorem flatMap_unitBytes_ofChar {b : UInt8} (hpos : b.toNat ≠ 0) (hb : b.toNat < 0x80) :
    (Utf16.ofChar (Char.ofNat b.toNat)).flatMap unitBytes = [b] := by
  have hchar : (Char.ofNat b.toNat).toNat = b.toNat := Utf16.toNat_ofNat (.inl (by omega))
  have hunit : (UInt16.ofNat b.toNat).toNat = b.toNat := by
    rw [UInt16.toNat_ofNat']
    exact Nat.mod_eq_of_lt (by omega)
  rw [Utf16.ofChar, hchar, if_pos (by omega), List.flatMap_singleton, unitBytes, hunit,
    if_neg (by omega), if_pos hb, UInt8.ofNat_toNat]

theorem encode_asciiText {bytes : Bytes} (h : isAscii bytes = true) :
    encode (asciiText bytes) = bytes := by
  have hbyte : ∀ b ∈ bytes, (Utf16.ofChar (Char.ofNat b.toNat)).flatMap unitBytes = [b] := by
    intro b hb
    obtain ⟨hpos, hlt⟩ := isAscii_eq_true_iff.1 h b hb
    exact flatMap_unitBytes_ofChar hpos hlt
  rw [encode, asciiText, String.toList_ofList, Utf16.encode, List.flatMap_map, List.flatMap_assoc,
    List.flatMap_congr hbyte, List.flatMap_singleton']

/-- To take ASCII bytes as they are is to read their groups. -/
theorem decode_eq_decodeGroups (bytes : Bytes) : decode bytes = decodeGroups bytes := by
  unfold decode
  split
  · next h =>
    have hgroups := decodeGroups_encode (asciiText bytes)
    rw [encode_asciiText h] at hgroups
    exact hgroups.symm
  · rfl

/-- A text comes back from its bytes. -/
theorem decode_bytes_of_text (s : String) : decode (encode s) = some s := by
  rw [decode_eq_decodeGroups, decodeGroups_encode]

/-- No byte of a text is zero or above EF. -/
theorem toNat_of_mem_encode {s : String} {b : UInt8} (hb : b ∈ encode s) :
    b.toNat ≠ 0 ∧ b.toNat ≤ 0xEF := by
  obtain ⟨groups, hgroups, -⟩ := exists_groups_unitBytes (Utf16.encode s.toList)
  rw [encode, ← hgroups] at hb
  obtain ⟨g, -, hg⟩ := List.mem_flatMap.1 hb
  exact Group.toNat_of_mem_bytes hg

/-- Every text comes back from its bytes, none of which is zero or above EF; so no two texts have
the same bytes. -/
theorem decode_encode_and_injective :
    (∀ s, decode (encode s) = some s ∧ ∀ b ∈ encode s, b.toNat ≠ 0 ∧ b.toNat ≤ 0xEF)
      ∧ Function.Injective encode := by
  refine ⟨fun s => ⟨decode_bytes_of_text s, fun b hb => toNat_of_mem_encode hb⟩, ?_⟩
  intro s t h
  have hdecode := congrArg decode h
  rwa [decode_bytes_of_text, decode_bytes_of_text, Option.some.injEq] at hdecode

/-- A text with U+0000 and a supplementary character, at one of its bytes. -/
theorem decode_encode_zeroAndPair : 0xED ∈ encode "a\x00😀"
    ∧ decode (encode "a\x00😀") = some "a\x00😀"
    ∧ (0xED : UInt8).toNat ≠ 0 ∧ (0xED : UInt8).toNat ≤ 0xEF := by
  have hmem : 0xED ∈ encode "a\x00😀" := by decide
  obtain ⟨hdecode, hbytes⟩ := decode_encode_and_injective.1 "a\x00😀"
  exact ⟨hmem, hdecode, hbytes 0xED hmem⟩

end ModifiedUtf8

end AnnotationGraft
