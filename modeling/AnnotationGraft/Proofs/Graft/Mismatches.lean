import AnnotationGraft.Proofs.Graft.Matching
import Mathlib.Data.List.Nodup

/-!
# What is said of members without one counterpart

A member is matched when exactly one member of the recipient has its identity.  When all are, each
is paired with the position of that member; otherwise those that are not are reported, and no
others, each with the number of its counterparts (`ClassFile.matchAll_pairs_or_reports`).
-/

namespace AnnotationGraft.ClassFile

variable {recipient : ClassFile} {id : MemberId} {ms : List Member}

/-- How many members of a class have an identity. -/
def counterparts (recipient : ClassFile) (id : MemberId) : Nat :=
  recipient.members.countP fun m => m.id = id

/-- What is reported of an identity with another number of counterparts than one. -/
def mismatchOf (recipient : ClassFile) (id : MemberId) : Mismatch :=
  if recipient.counterparts id = 0 then .unmatched id
  else .ambiguous id (recipient.counterparts id)

/-- What is reported of members. -/
def mismatchesOf (recipient : ClassFile) (ms : List Member) : List Mismatch :=
  (ms.filter fun m => recipient.counterparts m.id ≠ 1).map fun m => recipient.mismatchOf m.id

theorem length_positionsOf (recipient : ClassFile) (id : MemberId) :
    (recipient.positionsOf id).length = recipient.counterparts id := by
  have hmembers : recipient.members = recipient.members.zipIdx.map Prod.fst := by simp
  rw [positionsOf, List.length_map, ← List.countP_eq_length_filter, counterparts]
  conv_rhs => rw [hmembers, List.countP_map]
  rfl

theorem exists_matchMember_iff :
    (∃ i, recipient.matchMember id = .ok i) ↔ recipient.counterparts id = 1 := by
  rw [← length_positionsOf, List.length_eq_one_iff]
  simp only [matchMember_eq_ok_iff]

theorem matchMember_eq_error (h : recipient.counterparts id ≠ 1) :
    recipient.matchMember id = .error (recipient.mismatchOf id) := by
  rw [← length_positionsOf] at h
  rw [mismatchOf, ← length_positionsOf, matchMember]
  split
  · next hnone => rw [hnone]; rfl
  · next i hone => exact absurd (congrArg List.length hone) h
  · next hnone hone =>
    rw [if_neg (fun hlength => hnone (List.length_eq_zero_iff.1 hlength))]

/-- All members are matched and there is nothing to report, or there is and that is reported. -/
theorem matchAll_cases (recipient : ClassFile) (ms : List Member) :
    recipient.mismatchesOf ms = [] ∧ (∃ pairs, recipient.matchAll ms = .ok pairs)
      ∨ recipient.mismatchesOf ms ≠ []
        ∧ recipient.matchAll ms = .error (recipient.mismatchesOf ms) := by
  induction ms with
  | nil => exact .inl ⟨rfl, [], rfl⟩
  | cons m ms ih =>
    by_cases hone : recipient.counterparts m.id = 1
    · obtain ⟨i, hi⟩ := exists_matchMember_iff.2 hone
      have hsame : recipient.mismatchesOf (m :: ms) = recipient.mismatchesOf ms := by
        rw [mismatchesOf, List.filter_cons_of_neg (by simpa using hone)]
        rfl
      rw [hsame, matchAll, hi]
      rcases ih with ⟨hnone, pairs, hpairs⟩ | ⟨hsome, hreport⟩
      · rw [hpairs]
        exact .inl ⟨hnone, _, rfl⟩
      · rw [hreport]
        exact .inr ⟨hsome, rfl⟩
    · have hcons : recipient.mismatchesOf (m :: ms)
          = recipient.mismatchOf m.id :: recipient.mismatchesOf ms := by
        rw [mismatchesOf, List.filter_cons_of_pos (by simpa using hone), List.map_cons]
        rfl
      rw [hcons, matchAll, matchMember_eq_error hone]
      refine .inr ⟨List.cons_ne_nil _ _, ?_⟩
      rcases ih with ⟨hnone, pairs, hpairs⟩ | ⟨-, hreport⟩
      · rw [hpairs, hnone]
      · rw [hreport]

theorem mismatchesOf_eq_nil_iff :
    recipient.mismatchesOf ms = [] ↔ ∀ m ∈ ms, recipient.counterparts m.id = 1 := by
  simp [mismatchesOf]

/-- Members are matched when each of them has exactly one counterpart. -/
theorem exists_matchAll_iff :
    (∃ pairs, recipient.matchAll ms = .ok pairs) ↔
      ∀ m ∈ ms, recipient.counterparts m.id = 1 := by
  rw [← mismatchesOf_eq_nil_iff]
  rcases matchAll_cases recipient ms with ⟨hnone, hpairs⟩ | ⟨hsome, hreport⟩
  · exact iff_of_true hpairs hnone
  · rw [hreport]
    exact iff_of_false nofun hsome

theorem matchAll_eq_error_iff {mismatches : List Mismatch} :
    recipient.matchAll ms = .error mismatches ↔
      mismatches ≠ [] ∧ mismatches = recipient.mismatchesOf ms := by
  rcases matchAll_cases recipient ms with ⟨hnone, pairs, hpairs⟩ | ⟨hsome, hreport⟩
  · rw [hpairs, hnone]
    exact iff_of_false nofun fun h => h.1 h.2
  · rw [hreport, Except.error.injEq]
    constructor
    · rintro rfl
      exact ⟨hsome, rfl⟩
    · exact fun h => h.2.symm

theorem nodup_positionsOf (recipient : ClassFile) (id : MemberId) :
    (recipient.positionsOf id).Nodup := by
  refine List.Nodup.sublist (List.filter_sublist.map _) ?_
  rw [List.zipIdx_map_snd]
  exact List.nodup_range'

/-- A position is the matched one when it is the only one of a member of the identity. -/
theorem matchMember_eq_ok_iff_only {i : Nat} : recipient.matchMember id = .ok i ↔
    ∀ j, (∃ m, recipient.members[j]? = some m ∧ m.id = id) ↔ j = i := by
  rw [matchMember_eq_ok_iff, ← List.perm_singleton,
    List.perm_ext_iff_of_nodup (nodup_positionsOf recipient id) (List.nodup_singleton i)]
  simp only [mem_positionsOf_iff, List.mem_singleton]

/-- Members are paired with their counterparts, one by one and in order, when each has exactly one.
Otherwise those that have none or several are reported in order, and no others. -/
theorem matchAll_pairs_or_reports (recipient : ClassFile) (ms : List Member) :
    ((∃ pairs, recipient.matchAll ms = .ok pairs) ↔ ∀ m ∈ ms, recipient.counterparts m.id = 1)
      ∧ (∀ pairs, recipient.matchAll ms = .ok pairs ↔
        List.Forall₂ (fun m p => p.donor = m
          ∧ ∀ i, (∃ c, recipient.members[i]? = some c ∧ c.id = m.id) ↔ i = p.index) ms pairs)
      ∧ ∀ mismatches, recipient.matchAll ms = .error mismatches ↔
        mismatches ≠ [] ∧ mismatches = recipient.mismatchesOf ms := by
  refine ⟨exists_matchAll_iff, fun pairs => ?_, fun mismatches => matchAll_eq_error_iff⟩
  simp only [matchAll_eq_ok_iff, matchMember_eq_ok_iff_only]

-- One request without counterpart, and one with two that is made twice.
example :
    let field := fun name => (⟨⟨.field, name, "I"⟩, 0, .empty⟩ : Member)
    { ClassFile.new ⟨"A"⟩ with members := [field "x", field "y", field "x"] }.matchAll
        [field "x", field "z", field "y", field "x"]
      = .error [.ambiguous ⟨.field, "x", "I"⟩ 2, .unmatched ⟨.field, "z", "I"⟩,
        .ambiguous ⟨.field, "x", "I"⟩ 2] := by
  decide

end AnnotationGraft.ClassFile
