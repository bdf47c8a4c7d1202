import AnnotationGraft.Graft.Attempt
import AnnotationGraft.Proofs.ClassFile.RoundTrip
import AnnotationGraft.Proofs.Graft.Donation

/-!
# Verified output

Verification passes exactly for bytes of a class that agrees with the recipient in all that fusion
may not change (`verifyGrafted_eq_ok_iff`).  Writing a fused class can only go wrong by turning an
attribute that is kept as it is into annotations, and that changes the number of such attributes.
So bytes that were verified read back as the fused class (`decode_of_verified`).
-/

namespace AnnotationGraft

/-- Two members that differ in their annotations at most. -/
structure Member.AgreesWith (before after : Member) : Prop where
  id : before.id = after.id
  accessFlags : before.accessFlags = after.accessFlags
  verbatim : before.attributes.verbatim = after.attributes.verbatim

/-- Two classes that differ at most in what verification does not compare. -/
structure ClassFile.AgreesWith (before after : ClassFile) : Prop where
  name : before.name = after.name
  superName : before.superName = after.superName
  members : List.Forall₂ Member.AgreesWith before.members after.members
  verbatim : before.attributes.verbatim = after.attributes.verbatim

theorem Member.AgreesWith.refl (m : Member) : m.AgreesWith m := ⟨rfl, rfl, rfl⟩

namespace ClassFile

theorem AgreesWith.refl (c : ClassFile) : c.AgreesWith c :=
  ⟨rfl, rfl, List.forall₂_same.2 fun m _ => .refl m, rfl⟩

/-! ## Comparing -/

theorem verifyMembers_eq_ok_iff {befores afters : List Member}
    (hlength : befores.length = afters.length) :
    verifyMembers befores afters = .ok () ↔ List.Forall₂ Member.AgreesWith befores afters := by
  induction befores generalizing afters with
  | nil =>
    obtain rfl := List.length_eq_zero_iff.1 hlength.symm
    exact ⟨fun _ => .nil, fun _ => rfl⟩
  | cons before befores ih =>
    cases afters with
    | nil => cases hlength
    | cons after afters =>
      have hrest := ih (Nat.succ.inj hlength)
      rw [verifyMembers, List.forall₂_cons, ← hrest]
      split
      · next hchanged =>
        constructor
        · exact nofun
        · intro h
          rcases hchanged with hid | hflags
          · exact absurd h.1.id hid
          · exact absurd h.1.accessFlags hflags
      · next hsame =>
        rw [not_or, not_not, not_not] at hsame
        split
        · next hchanged =>
          constructor
          · exact nofun
          · exact fun h => absurd h.1.verbatim hchanged
        · next hverbatim =>
          have hagrees : before.AgreesWith after :=
            ⟨hsame.1, hsame.2, not_not.1 hverbatim⟩
          exact ⟨fun h => ⟨hagrees, h⟩, fun h => h.2⟩

/-- Verification passes exactly for bytes of a class that agrees with the one before. -/
theorem verifyGrafted_eq_ok_iff {before : ClassFile} {bytes : Bytes} :
    before.verifyGrafted bytes = .ok () ↔
      ∃ after, decode bytes = .ok after ∧ before.AgreesWith after := by
  unfold verifyGrafted
  cases hdecode : decode bytes with
  | error e =>
    constructor
    · exact nofun
    · intro h
      obtain ⟨after, hafter, -⟩ := h
      cases hafter
  | ok after =>
    simp only [Except.ok.injEq, exists_eq_left']
    split
    · next hchanged =>
      constructor
      · exact nofun
      · intro h
        rcases hchanged with hname | hsuper
        · exact absurd h.name.symm hname
        · exact absurd h.superName.symm hsuper
    next hsame =>
    rw [not_or, not_not, not_not] at hsame
    split
    · next hchanged =>
      constructor
      · exact nofun
      · exact fun h => absurd h.members.length_eq.symm hchanged
    next hlength =>
    rw [not_not] at hlength
    rw [except_bind_eq_ok_iff]
    constructor
    · intro h
      obtain ⟨_, hmembers, hclass⟩ := h
      split at hclass
      · cases hclass
      next hverbatim =>
      exact ⟨hsame.1.symm, hsame.2.symm, (verifyMembers_eq_ok_iff hlength.symm).1 hmembers,
        not_not.1 hverbatim⟩
    · intro h
      refine ⟨(), (verifyMembers_eq_ok_iff hlength.symm).2 h.members, ?_⟩
      rw [if_neg (not_not.2 h.verbatim)]
      rfl

/-! ## Verified output -/

variable {settings : Settings} {donor recipient c c' : ClassFile} {pool : ConstantPool}
  {bytes : Bytes}

/-- Fusion changes nothing that is compared. -/
theorem AgreesWith.fused (h : recipient.AgreesWith c) :
    (settings.fused donor recipient).AgreesWith c where
  name := h.name
  superName := h.superName
  members := by
    show List.Forall₂ _ (recipient.members.map (settings.fusedMember donor)) _
    rw [List.forall₂_map_left_iff]
    exact h.members.imp fun _ _ hm => ⟨hm.id, hm.accessFlags, hm.verbatim⟩
  verbatim := h.verbatim

/-- A class that agrees with what was read of it has kept its roles. -/
theorem AgreesWith.keepsRoles (h : c.AgreesWith c') (hread : c.ReadAs pool c') : c.KeepsRoles :=
  hread.keepsRoles (h.members.imp fun _ _ hm => hm.verbatim.symm) h.verbatim.symm

/-- If what was written of a fused class is verified, then the fused class is read. -/
theorem decode_of_verified (hdonor : donor.IsWellFormed) (hrecipient : recipient.IsWellFormed)
    (hwritten : (settings.fused donor recipient).WritesWith pool bytes)
    (hverified : recipient.verifyGrafted bytes = .ok ()) :
    decode bytes = .ok { (settings.fused donor recipient).regrouped with pool := pool } := by
  obtain ⟨after, hafter, hagrees⟩ := verifyGrafted_eq_ok_iff.1 hverified
  have hwf : (settings.fused donor recipient).IsWellFormed :=
    Settings.isWellFormed_fused hdonor hrecipient
  exact hwritten.decode_eq hwf (hagrees.fused.keepsRoles (hwritten.readAs hwf hafter))

end ClassFile

end AnnotationGraft
