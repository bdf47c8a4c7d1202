import AnnotationGraft.Proofs.ClassFile.Texts
import AnnotationGraft.Proofs.Graft.Verification

/-!
# What is written of a fused class

A fused class has no text that is too long to be written, for all its texts were read
(`Settings.texts_fused`).  And what is written of it passes verification, unless a table of the
recipient has two attributes of one annotation attribute's name (`Settings.verifyGrafted_fused`).
The later of the two is kept as it is, and once the first has lost its annotations and is left out,
the later one is taken for annotations.
-/

namespace AnnotationGraft

/-! ## Texts -/

namespace AnnotationSet

/-- What is in a set after insertions was there before or was inserted. -/
theorem mem_entries_insertAll {set : AnnotationSet} {as : List AnnotationUse}
    (hnormal : ∀ a ∈ as, a.normalize = a) {b : AnnotationUse}
    (h : b ∈ (set.insertAll as).entries) : b ∈ set.entries ∨ b ∈ as := by
  induction as generalizing set with
  | nil => exact .inl h
  | cons a as ih =>
    rcases ih (fun c hc => hnormal c (List.mem_cons_of_mem a hc)) h with hset | has
    · rcases mem_entries_insert hset with rfl | hset
      · rw [hnormal a List.mem_cons_self]
        exact .inr List.mem_cons_self
      · exact .inl hset
    · exact .inr (List.mem_cons_of_mem a has)

end AnnotationSet

namespace Settings

variable {settings : Settings} {donor recipient : ClassFile}

/-- An annotation of a fused member was there before or is on a member of the donor. -/
theorem mem_entries_fusedMember (hdonor : donor.IsWellFormed) {m : Member} {a : AnnotationUse}
    (h : a ∈ (settings.fusedMember donor m).attributes.annotations.entries) :
    a ∈ m.attributes.annotations.entries
      ∨ ∃ d ∈ donor.members, a ∈ d.attributes.annotations.entries := by
  have hnormal : ∀ b ∈ (settings.donorsOf donor m.id).flatMap settings.copiedFrom,
      b.normalize = b := fun b hb =>
    AnnotationUse.normalize_of_isWellFormed (isWellFormed_of_mem_copied hdonor hb)
  rcases AnnotationSet.mem_entries_insertAll hnormal h with hm | hcopied
  · exact .inl hm
  · obtain ⟨d, hd, ha⟩ := List.mem_flatMap.1 hcopied
    have hdonorMember : d ∈ donor.members := (List.mem_filter.1 (List.mem_filter.1 hd).1).1
    exact .inr ⟨d, hdonorMember, (AnnotationSet.mem_copied_iff.1 ha).1⟩

/-- An annotation of a fused class was there before or is on the donor. -/
theorem mem_entries_fusedSet (hdonor : donor.IsWellFormed) {set : AnnotationSet}
    {a : AnnotationUse} (h : a ∈ (settings.fusedSet donor set).entries) :
    a ∈ set.entries ∨ a ∈ donor.annotations.entries := by
  have hnormal : ∀ b ∈ settings.copiedFromClass donor, b.normalize = b := fun b hb =>
    hdonor.attributes.annotations.isNormal.normalize_of_mem_copied _ hb
  unfold fusedSet at h
  split at h
  · rcases AnnotationSet.mem_entries_insertAll hnormal h with hset | hcopied
    · exact .inl hset
    · exact .inr (AnnotationSet.mem_copied_iff.1 hcopied).1
  · exact .inl h

/-- The texts of a fused class are texts of the donor or of the recipient. -/
theorem texts_fused (hdonor : donor.IsWellFormed) {P : String → Prop}
    (hd : ∀ s ∈ donor.texts, P s) (hr : ∀ s ∈ recipient.texts, P s) :
    ∀ s ∈ (settings.fused donor recipient).texts, P s := by
  obtain ⟨-, hdonorTables⟩ := ClassFile.forall_mem_texts_iff.1 hd
  obtain ⟨hnames, htables⟩ := ClassFile.forall_mem_texts_iff.1 hr
  have hgiven : ∀ t ∈ donor.tables, ∀ a ∈ t.annotations.entries, ∀ s ∈ a.texts, P s :=
    fun t ht => (AttributeTable.forall_mem_texts_iff.1 (hdonorTables t ht)).2
  -- A table that gets annotations of the donor only.
  have htable : ∀ t ∈ recipient.tables, ∀ set : AnnotationSet,
      (∀ a ∈ set.entries, a ∈ t.annotations.entries
        ∨ ∃ given ∈ donor.tables, a ∈ given.annotations.entries) →
      ∀ s ∈ ({ t with annotations := set } : AttributeTable).texts, P s := by
    intro t ht set hset
    obtain ⟨hslots, hentries⟩ := AttributeTable.forall_mem_texts_iff.1 (htables t ht)
    refine AttributeTable.forall_mem_texts_iff.2 ⟨hslots, fun a ha => ?_⟩
    rcases hset a ha with hmem | ⟨given, hmem, ha⟩
    · exact hentries a hmem
    · exact hgiven given hmem a ha
  refine ClassFile.forall_mem_texts_iff.2 ⟨?_, ClassFile.forall_mem_tables_iff.2 ⟨?_, ?_⟩⟩
  · rw [ClassFile.forall_mem_names_iff] at hnames ⊢
    exact ⟨hnames.1, hnames.2.1, hnames.2.2.1, List.forall_mem_map.2 hnames.2.2.2⟩
  · refine htable _ ClassFile.attributes_mem_tables _ fun a ha => ?_
    exact (mem_entries_fusedSet hdonor ha).imp id fun ha =>
      ⟨_, ClassFile.attributes_mem_tables, ha⟩
  · refine List.forall_mem_map.2 fun m hm => ?_
    refine htable _ (ClassFile.mem_tables_of_mem hm) _ fun a ha => ?_
    refine (mem_entries_fusedMember hdonor ha).imp id ?_
    rintro ⟨d, hdmem, ha⟩
    exact ⟨_, ClassFile.mem_tables_of_mem hdmem, ha⟩

end Settings

/-! ## Roles -/

/-- Two attributes of the table bear the name of one annotation attribute. -/
def AttributeTable.RepeatsAnnotations (t : AttributeTable) : Prop :=
  ∃ r : Retention, 2 ≤ t.slots.countP fun slot => slot.name = r.attributeName

/-- A verbatim slot of an annotation attribute's name repeats the name of the annotation slot. -/
theorem AttributeTable.IsWellFormed.rolesStay_or_repeats {t : AttributeTable}
    (h : t.IsWellFormed) :
    (∀ name info, .verbatim name info ∈ t.slots → Retention.ofAttributeName? name = none)
      ∨ t.RepeatsAnnotations := by
  by_cases hnone : ∀ name info, .verbatim name info ∈ t.slots →
      Retention.ofAttributeName? name = none
  · exact .inl hnone
  · simp only [not_forall] at hnone
    obtain ⟨name, info, hmem, hsome⟩ := hnone
    obtain ⟨r, hr⟩ := Option.ne_none_iff_exists'.1 hsome
    obtain ⟨front, back, hslots⟩ := List.append_of_mem hmem
    have hfirst := h.rolesKept front _ back hslots r rfl hr
    have hfront : 0 < front.countP fun slot => slot.name = r.attributeName :=
      List.countP_pos_iff.2 ⟨_, hfirst, by simp [AttributeSlot.name]⟩
    have hname : (AttributeSlot.verbatim name info).name = r.attributeName :=
      (Retention.attributeName_of_ofAttributeName? hr).symm
    refine .inr ⟨r, ?_⟩
    rw [hslots, List.countP_append, List.countP_cons_of_pos (by simpa using hname)]
    omega

namespace Settings

variable {settings : Settings} {donor recipient : ClassFile}

/-- Fusion leaves the slots as they are, so no verbatim slot can take a role, unless a table of the
recipient repeats an annotation attribute. -/
theorem rolesStay_fused (hrecipient : recipient.IsWellFormed)
    (hrepeats : ∀ t ∈ recipient.tables, ¬ t.RepeatsAnnotations) :
    (settings.fused donor recipient).RolesStay := by
  have htable : ∀ t ∈ recipient.tables, ∀ set,
      ({ t with annotations := set } : AttributeTable).RolesStay := by
    intro t ht set name info r hmem hname
    have hnone :=
      (hrecipient.tables t ht).rolesStay_or_repeats.resolve_right (hrepeats t ht) name info hmem
    rw [hname] at hnone
    cases hnone
  refine ⟨fun m hm => ?_, htable _ ClassFile.attributes_mem_tables _⟩
  obtain ⟨before, hbefore, rfl⟩ := List.mem_map.1 hm
  exact htable _ (ClassFile.mem_tables_of_mem hbefore) _

/-- Grafting changes nothing that verification compares. -/
theorem IsGraftOf.agreesWith {before after : ClassFile}
    (h : settings.IsGraftOf donor before after) : before.AgreesWith after where
  name := h.name.symm
  superName := h.superName.symm
  members := h.members.imp fun _ _ hm => ⟨hm.id.symm, hm.accessFlags.symm, hm.verbatim.symm⟩
  verbatim := h.verbatim.symm

/-- What is written of a fused class passes verification, unless a table of the recipient repeats
an annotation attribute. -/
theorem verifyGrafted_fused (hdonor : donor.IsWellFormed) (hrecipient : recipient.IsWellFormed)
    (hrepeats : ∀ t ∈ recipient.tables, ¬ t.RepeatsAnnotations) {bytes : Bytes}
    (h : (settings.fused donor recipient).encode = .ok bytes) :
    recipient.verifyGrafted bytes = .ok () := by
  have hwf : (settings.fused donor recipient).IsWellFormed := isWellFormed_fused hdonor hrecipient
  have hkeeps : (settings.fused donor recipient).KeepsRoles :=
    hwf.keepsRoles (rolesStay_fused hrecipient hrepeats)
  obtain ⟨pool, hwrites⟩ := ClassFile.encode_eq_ok_iff.1 h
  have hgraft : settings.IsGraftOf donor recipient
      { (settings.fused donor recipient).regrouped with pool := pool } :=
    isGraftOf_regrouped_fused hdonor hrecipient hwrites.extends_pool
  exact ClassFile.verifyGrafted_eq_ok_iff.2 ⟨_, hwrites.decode_eq hwf hkeeps, hgraft.agreesWith⟩

end Settings

end AnnotationGraft
