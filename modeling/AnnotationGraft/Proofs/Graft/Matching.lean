import AnnotationGraft.Graft.Matching
import Mathlib.Data.List.Forall2

/-!
# Matched members

A member is matched when exactly one member of the recipient has its identity, and the pairing names
the position of that member.  Matching looks at identities only (`matchAll_congr`), so it gives the
same pairs after a fusion as before it.
-/

namespace AnnotationGraft.ClassFile

variable {c recipient : ClassFile} {id : MemberId} {i : Nat} {ms : List Member}
  {pairs : List Pairing}

theorem mem_positionsOf_iff :
    i ∈ c.positionsOf id ↔ ∃ m, c.members[i]? = some m ∧ m.id = id := by
  rw [positionsOf, List.mem_map]
  constructor
  · intro h
    obtain ⟨⟨m, j⟩, hm, rfl⟩ := h
    obtain ⟨hmem, hid⟩ := List.mem_filter.1 hm
    exact ⟨m, List.mem_zipIdx_iff_getElem?.1 hmem, of_decide_eq_true hid⟩
  · intro h
    obtain ⟨m, hm, hid⟩ := h
    exact ⟨(m, i), List.mem_filter.2 ⟨List.mem_zipIdx_iff_getElem?.2 hm, decide_eq_true hid⟩, rfl⟩

/-- The positions of an identity depend on the identities only. -/
theorem positionsOf_congr {c' : ClassFile} (h : c.members.map (·.id) = c'.members.map (·.id)) :
    c.positionsOf id = c'.positionsOf id := by
  have hids : ∀ d : ClassFile, d.positionsOf id
      = ((d.members.map (·.id)).zipIdx.filter fun x => x.1 = id).map (·.2) := by
    intro d
    rw [List.zipIdx_map, List.filter_map, List.map_map]
    rfl
  rw [hids, hids, h]

theorem matchMember_eq_ok_iff :
    recipient.matchMember id = .ok i ↔ recipient.positionsOf id = [i] := by
  unfold matchMember
  split
  · next h => simp [h]
  · next j h => simp [h]
  · next hnil hone =>
    constructor
    · exact nofun
    · exact fun h => absurd h (hone i)

/-- A matched position is that of the one member of the identity. -/
theorem eq_of_matchMember (h : recipient.matchMember id = .ok i) {j : Nat} {m : Member}
    (hj : recipient.members[j]? = some m) : i = j ↔ id = m.id := by
  have hone := matchMember_eq_ok_iff.1 h
  constructor
  · intro heq
    subst heq
    obtain ⟨m', hm', hid⟩ := mem_positionsOf_iff.1 (hone ▸ List.mem_singleton_self i)
    rw [hj] at hm'
    rw [Option.some.inj hm', hid]
  · intro hid
    have hmem : j ∈ recipient.positionsOf id := mem_positionsOf_iff.2 ⟨m, hj, hid.symm⟩
    rw [hone, List.mem_singleton] at hmem
    exact hmem.symm

theorem exists_of_matchMember (h : recipient.matchMember id = .ok i) :
    ∃ m, recipient.members[i]? = some m ∧ m.id = id :=
  mem_positionsOf_iff.1 (matchMember_eq_ok_iff.1 h ▸ List.mem_singleton_self i)

/-- All members are matched when each of them is. -/
theorem matchAll_eq_ok_iff :
    recipient.matchAll ms = .ok pairs ↔
      List.Forall₂ (fun m p => p.donor = m ∧ recipient.matchMember m.id = .ok p.index)
        ms pairs := by
  induction ms generalizing pairs with
  | nil => simp [matchAll, eq_comm]
  | cons m ms ih =>
    rw [List.forall₂_cons_left_iff]
    unfold matchAll
    cases hm : recipient.matchMember m.id with
    | error mismatch =>
      cases hms : recipient.matchAll ms <;> simp
    | ok index =>
      cases hms : recipient.matchAll ms with
      | error mismatches =>
        simp only [← ih, hms, reduceCtorEq, false_and, and_false, exists_false]
      | ok rest =>
        simp only [← ih, hms, Except.ok.injEq]
        constructor
        · intro h
          exact ⟨⟨m, index⟩, rest, ⟨rfl, rfl⟩, rfl, h.symm⟩
        · intro h
          obtain ⟨⟨d, j⟩, rest', ⟨rfl, rfl⟩, rfl, rfl⟩ := h
          rfl

/-- Every pairing names the position of a member of its identity. -/
theorem exists_of_matchAll (h : recipient.matchAll ms = .ok pairs) {p : Pairing} (hp : p ∈ pairs) :
    p.donor ∈ ms ∧ ∃ m, recipient.members[p.index]? = some m ∧ m.id = p.donor.id := by
  rw [matchAll_eq_ok_iff] at h
  induction h with
  | nil => cases hp
  | @cons d q ds ps hd _ ih =>
    rcases List.mem_cons.1 hp with rfl | hp
    · obtain ⟨rfl, hmatch⟩ := hd
      exact ⟨List.mem_cons_self, exists_of_matchMember hmatch⟩
    · obtain ⟨hmem, hm⟩ := ih hp
      exact ⟨List.mem_cons_of_mem d hmem, hm⟩

/-- Matching depends on the identities only. -/
theorem matchAll_congr {c' : ClassFile} (h : c.members.map (·.id) = c'.members.map (·.id))
    (ms : List Member) : c.matchAll ms = c'.matchAll ms := by
  induction ms with
  | nil => rfl
  | cons m ms ih =>
    have hm : c.matchMember m.id = c'.matchMember m.id := by
      rw [matchMember, matchMember, positionsOf_congr h]
    rw [matchAll, matchAll, ih, hm]

/-- The donors of a position are the requested members of the identity that stands there. -/
theorem donors_of_matchAll (h : recipient.matchAll ms = .ok pairs) {j : Nat} {m : Member}
    (hj : recipient.members[j]? = some m) :
    (pairs.filter fun p => p.index = j).map (·.donor) = ms.filter fun d => d.id = m.id := by
  rw [matchAll_eq_ok_iff] at h
  induction h with
  | nil => rfl
  | @cons d p ds ps hd _ ih =>
    obtain ⟨rfl, hmatch⟩ := hd
    have hiff := eq_of_matchMember hmatch hj
    by_cases hindex : p.index = j
    · have hid := hiff.1 hindex
      rw [List.filter_cons_of_pos (by simpa using hindex), List.map_cons, ih,
        List.filter_cons_of_pos (by simpa using hid)]
    · have hid := fun heq => hindex (hiff.2 heq)
      rw [List.filter_cons_of_neg (by simpa using hindex), ih,
        List.filter_cons_of_neg (by simpa using hid)]

end AnnotationGraft.ClassFile
