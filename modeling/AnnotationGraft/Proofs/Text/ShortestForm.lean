import AnnotationGraft.Proofs.Text.ModifiedUtf8

/-!
# Texts are written in their shortest form

Reading accepts groups that are longer than they need be, and writing never makes one.  So a text
that was read is written in no more bytes than it was read from
(`ModifiedUtf8.length_encode_le_of_decode`).

The units of a text come back as they were (`Utf16.encode_eq_of_decode`), for surrogates are read in
pairs only.  The bytes are compared group by group.
-/

namespace AnnotationGraft

namespace Utf16

/-- A unit that is no surrogate is that of its character. -/
theorem ofChar_ofNat {u : UInt16} (hhigh : isHighSurrogate u = false)
    (hlow : isLowSurrogate u = false) : ofChar (Char.ofNat u.toNat) = [u] := by
  have hu := u.toNat_lt
  simp only [isHighSurrogate, isLowSurrogate, Bool.and_eq_false_iff, decide_eq_false_iff_not]
    at hhigh hlow
  have hnat : (Char.ofNat u.toNat).toNat = u.toNat := toNat_ofNat (by omega)
  rw [ofChar, hnat, if_pos (by omega), UInt16.ofNat_toNat]

/-- A pair of surrogates is that of its character. -/
theorem ofChar_ofPair {u v : UInt16} (hhigh : isHighSurrogate u = true)
    (hlow : isLowSurrogate v = true) : ofChar (ofPair u v) = [u, v] := by
  simp only [isHighSurrogate, isLowSurrogate, Bool.and_eq_true, decide_eq_true_eq] at hhigh hlow
  have hnat : (ofPair u v).toNat
      = 0x10000 + (u.toNat - 0xD800) * 0x400 + (v.toNat - 0xDC00) := toNat_ofNat (by omega)
  have hfirst : 0xD800 + ((ofPair u v).toNat - 0x10000) / 0x400 = u.toNat := by omega
  have hsecond : 0xDC00 + ((ofPair u v).toNat - 0x10000) % 0x400 = v.toNat := by omega
  rw [ofChar, if_neg (by omega), hfirst, hsecond, UInt16.ofNat_toNat, UInt16.ofNat_toNat]

theorem encode_of_decodeOnto {done cs : List Char} {units : List UInt16}
    (h : decodeOnto done units = some cs) :
    ∃ new, cs = done.reverse ++ new ∧ encode new = units := by
  fun_induction decodeOnto done units with
  | case1 done =>
    exact ⟨[], by simpa [eq_comm] using h, rfl⟩
  | case2 done u hhigh v rest hlow ih =>
    obtain ⟨new, rfl, hnew⟩ := ih h
    refine ⟨ofPair u v :: new, by simp, ?_⟩
    rw [encode, List.flatMap_cons, ofChar_ofPair hhigh hlow, ← encode, hnew]
    rfl
  | case3 | case4 | case5 => cases h
  | case6 done u rest hhigh hlow ih =>
    obtain ⟨new, rfl, hnew⟩ := ih h
    refine ⟨Char.ofNat u.toNat :: new, by simp, ?_⟩
    rw [encode, List.flatMap_cons, ofChar_ofNat (by simpa using hhigh) (by simpa using hlow),
      ← encode, hnew]
    rfl

/-- The units that were read are those that are written. -/
theorem encode_eq_of_decode {units : List UInt16} {cs : List Char} (h : decode units = some cs) :
    encode cs = units := by
  obtain ⟨new, rfl, hnew⟩ := encode_of_decodeOnto h
  exact hnew

end Utf16

namespace ModifiedUtf8

variable {bytes : Bytes} {s : String} {groups : List Group}

/-- The units of a text that was read are those of the groups into which the bytes split. -/
theorem map_unit_of_decode (h : decode bytes = some s)
    (hgroups : groups.flatMap Group.bytes = bytes) :
    groups.map Group.unit = Utf16.encode s.toList := by
  subst hgroups
  rw [decode_eq_decodeGroups, decodeGroups, units?_groups, Option.bind_some] at h
  obtain ⟨cs, hcs, rfl⟩ := Option.map_eq_some_iff.1 h
  rw [String.toList_ofList, Utf16.encode_eq_of_decode hcs]

theorem exists_groups_of_decode (h : decode bytes = some s) :
    ∃ groups : List Group, groups.flatMap Group.bytes = bytes := by
  rw [decode_eq_decodeGroups, decodeGroups, Option.bind_eq_some_iff] at h
  obtain ⟨units, hunits, -⟩ := h
  exact exists_groups_of_unitsOnto hunits

/-- No unit is written in more bytes than the group from which it was read. -/
theorem length_flatMap_unitBytes_le (groups : List Group) :
    ((groups.map Group.unit).flatMap unitBytes).length
      ≤ (groups.flatMap Group.bytes).length := by
  induction groups with
  | nil => exact Nat.le_refl 0
  | cons g groups ih =>
    rw [List.map_cons, List.flatMap_cons, List.flatMap_cons, List.length_append,
      List.length_append]
    exact Nat.add_le_add (length_unitBytes_le g) ih

/-- A text that was read is written in no more bytes than it was read from. -/
theorem length_encode_le_of_decode (h : decode bytes = some s) :
    (encode s).length ≤ bytes.length := by
  obtain ⟨groups, hgroups⟩ := exists_groups_of_decode h
  rw [encode, ← map_unit_of_decode h hgroups, ← hgroups]
  exact length_flatMap_unitBytes_le groups

end ModifiedUtf8

end AnnotationGraft
