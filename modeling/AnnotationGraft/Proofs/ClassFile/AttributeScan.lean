import AnnotationGraft.Proofs.ClassFile.AttributeBytes

/-!
# Attribute tables read

`meets_attributes` is about the bytes that were written of a well-formed table.  Where roles are
kept, the regrouped table is read from them.  Where one is not, a verbatim slot was taken for
annotations, and fewer verbatim slots are read than were written; so whoever finds all of them knows
that roles were kept.

`ensures_attributes` is about a table that was read from bytes that nobody has written: it is
well-formed, its annotations stand in the order of their slots, and in a canonical pool it is
written as the bytes that it was read from, if no annotation attribute was empty.
-/

namespace AnnotationGraft.Scan

open AttributeSlot (held RolesKept KeepsRole rolesKept_nil rolesKept_concat_iff
  keepsRole_annotations)

variable {pool : ConstantPool} {done : PartialTable} {name : String}

/-! ## One attribute -/

/-- What becomes of an attribute whose name, size and body are known. -/
def takeAttribute (pool : ConstantPool) (done : PartialTable) (name : String) (size : UInt32)
    (start : Nat) (info : Bytes) : Scan PartialTable :=
  match Retention.ofAttributeName? name with
  | none => return ⟨done.annotations, .verbatim name info :: done.slotsReversed⟩
  | some r =>
    if AttributeSlot.annotations r ∈ done.slotsReversed then
      return ⟨done.annotations, .verbatim name info :: done.slotsReversed⟩
    else do
      let (set, unread) ← within info start (annotationsInto pool r done.annotations)
      if unread = 0 then return ⟨set, .annotations r :: done.slotsReversed⟩
      else throw (.attributeLength name size.toNat (size.toNat - unread))

theorem attributeInto_eq (pool : ConstantPool) (done : PartialTable) :
    attributeInto pool done
      = lookup pool.utf8 >>= fun name => word32 >>= fun size => offset >>= fun start =>
          bytes size.toNat >>= fun info => takeAttribute pool done name size start info :=
  rfl

/-- Whether an attribute of the name is kept as it is after the slots read so far. -/
def IsKept (done : PartialTable) (name : String) : Prop :=
  ∀ r, Retention.ofAttributeName? name = some r →
    AttributeSlot.annotations r ∈ done.slotsReversed

theorem takeAttribute_of_isKept (h : IsKept done name) (size : UInt32) (start : Nat)
    (info : Bytes) :
    takeAttribute pool done name size start info
      = pure ⟨done.annotations, .verbatim name info :: done.slotsReversed⟩ := by
  unfold takeAttribute
  split
  · rfl
  · next r hr => rw [if_pos (h r hr)]

theorem takeAttribute_of_not_isKept {r : Retention}
    (hr : Retention.ofAttributeName? name = some r)
    (hnot : AttributeSlot.annotations r ∉ done.slotsReversed) (size : UInt32) (start : Nat)
    (info : Bytes) :
    takeAttribute pool done name size start info
      = within info start (annotationsInto pool r done.annotations) >>= fun found =>
        if found.2 = 0 then pure ⟨found.1, .annotations r :: done.slotsReversed⟩
        else throw (.attributeLength name size.toNat (size.toNat - found.2)) := by
  unfold takeAttribute
  rw [hr]
  simp only [if_neg hnot]

theorem isKept_or (done : PartialTable) (name : String) :
    IsKept done name ∨ ∃ r, Retention.ofAttributeName? name = some r
      ∧ AttributeSlot.annotations r ∉ done.slotsReversed := by
  by_cases h : IsKept done name
  · exact .inl h
  · simp only [IsKept, not_forall] at h
    obtain ⟨r, hr, hnot⟩ := h
    exact .inr ⟨r, hr, hnot⟩

/-- The name, the size and the body of a written attribute are read back. -/
theorem meets_attributeInto {i : UInt16} {info part : Bytes} {sure : Prop}
    {Q : PartialTable → Prop} (hi : pool.utf8 i = .ok name)
    (hpart : Interning.attributeBytes ⟨i, info⟩ = .ok part)
    (hnext : ∀ size start, Meets (takeAttribute pool done name size start info) [] sure Q) :
    Meets (attributeInto pool done) part sure Q := by
  obtain ⟨hsize, rfl⟩ := Interning.attributeBytes_eq_ok_iff.1 hpart
  have hcount : (UInt32.ofNat info.length).toNat = info.length := by
    rw [UInt32.toNat_ofNat']
    exact Nat.mod_eq_of_lt hsize
  rw [attributeInto_eq, List.append_assoc]
  refine (reads_lookup hi).bind_meets ?_
  refine (reads_word32 _).bind_meets ?_
  show Meets _ ([] ++ info) sure Q
  refine (meets_offset sure).bind fun start _ => ?_
  show Meets _ info sure Q
  have hread := (reads_bytes hcount).bind_meets (hnext (UInt32.ofNat info.length) start)
  rwa [List.append_nil] at hread

/-- An attribute is kept as it is, or annotations are read from it. -/
theorem meets_takeAttribute (size : UInt32) (start : Nat) (info : Bytes) :
    Meets (takeAttribute pool done name size start info) [] False fun done' =>
      IsKept done name ∧ done'.slotsReversed = .verbatim name info :: done.slotsReversed ∨
        ∃ r, Retention.ofAttributeName? name = some r
          ∧ done'.slotsReversed = .annotations r :: done.slotsReversed := by
  rcases isKept_or done name with hkept | ⟨r, hr, hnot⟩
  · rw [takeAttribute_of_isKept hkept]
    exact meets_pure (.inl ⟨hkept, rfl⟩) False
  · rw [takeAttribute_of_not_isKept hr hnot]
    show Meets _ ([] ++ []) _ _
    refine (meets_within _ info start).bind fun found _ => ?_
    split
    · exact meets_pure (.inr ⟨r, hr, rfl⟩) False
    · exact meets_throw _ _ _

/-! ## A written table -/

section Written

variable {set : AnnotationSet} {front : List AttributeSlot} {slot : AttributeSlot} {part : Bytes}

/-- The table that slots that keep their roles make. -/
def collected (set : AnnotationSet) (front : List AttributeSlot) : PartialTable where
  annotations := ⟨front.flatMap (held set)⟩
  slotsReversed := front.reverse

/-- What is known once the attributes of the slots `front` have been read. -/
structure Progress (set : AnnotationSet) (front : List AttributeSlot) (done : PartialTable) :
    Prop where
  /-- Annotations were read from an attribute of their name. -/
  named : ∀ r, AttributeSlot.annotations r ∈ done.slotsReversed →
    ∃ slot ∈ front, slot.name = r.attributeName
  kept : RolesKept front → done = collected set front
  /-- A role that was lost took a verbatim slot away, and nothing makes up for it. -/
  lost : ¬ RolesKept front → (done.slotsReversed.filter AttributeSlot.isVerbatim).length
    < (front.filter AttributeSlot.isVerbatim).length

theorem progress_collected (h : RolesKept front) : Progress set front (collected set front) where
  named _ hr := ⟨_, List.mem_reverse.1 hr, rfl⟩
  kept _ := rfl
  lost hlost := absurd h hlost

/-- The attribute of a slot that keeps its role is read as that slot. -/
theorem meets_attributeInto_of_keepsRole (hsize : pool.size ≤ maxWord)
    (hkeeps : slot.KeepsRole front) (hfirst : ∀ r, slot = .annotations r → slot ∉ front)
    (hwf : ∀ a ∈ slot.held set, a.isWellFormed a.retention 0 = true)
    (hnodup : (((front ++ [slot]).flatMap (held set)).map (·.kind)).Nodup)
    (h : Interning.Gives (Interning.slotBytes set slot) pool part) (sure : Prop) :
    Meets (attributeInto pool (collected set front)) part sure
      (· = collected set (front ++ [slot])) := by
  obtain ⟨i, info, hi, hinfo, hpart⟩ := Interning.gives_slotBytes_iff.1 h
  refine meets_attributeInto (Interning.utf8_of_gives hsize hi) hpart fun size start => ?_
  cases slot with
  | verbatim name body =>
    have hbody : info = body := Interning.gives_pure_iff.1 hinfo
    have hkept : IsKept (collected set front) name := fun r hr =>
      List.mem_reverse.2 (hkeeps r rfl hr)
    show Meets (takeAttribute pool _ name size start info) _ _ _
    rw [takeAttribute_of_isKept hkept, hbody]
    exact meets_pure (by simp [collected, held]) sure
  | annotations r =>
    have hnot : AttributeSlot.annotations r ∉ (collected set front).slotsReversed := fun hmem =>
      hfirst r rfl (List.mem_reverse.1 hmem)
    have hwfr : ∀ a ∈ set.withRetention r, a.isWellFormed r 0 = true := by
      intro a ha
      have hret : a.retention = r := by
        simpa using (List.mem_filter.1 ha).2
      have := hwf a ha
      rwa [hret] at this
    have hbody : Reads (annotationsInto pool r ⟨front.flatMap (held set)⟩) info
        ⟨front.flatMap (held set) ++ set.withRetention r⟩ := by
      refine reads_annotationsInto hsize hwfr ?_ hinfo
      rw [List.flatMap_append, List.map_append] at hnodup
      simpa [AnnotationSet.kinds, held] using hnodup
    show Meets (takeAttribute pool _ r.attributeName size start info) _ _ _
    rw [takeAttribute_of_not_isKept (Retention.ofAttributeName?_attributeName r) hnot]
    have hcollected : collected set (front ++ [.annotations r])
        = ⟨⟨front.flatMap (held set) ++ set.withRetention r⟩, .annotations r :: front.reverse⟩ := by
      simp [collected, held]
    rw [hcollected]
    show Meets _ ([] ++ []) _ _
    refine (reads_within hbody start).bind_meets ?_
    exact meets_pure rfl sure

theorem Progress.verbatim_le (h : Progress set front done) :
    (done.slotsReversed.filter AttributeSlot.isVerbatim).length
      ≤ (front.filter AttributeSlot.isVerbatim).length := by
  by_cases hfront : RolesKept front
  · have hlength : (done.slotsReversed.filter AttributeSlot.isVerbatim).length
        = (front.filter AttributeSlot.isVerbatim).length := by
      rw [h.kept hfront, collected, List.filter_reverse, List.length_reverse]
    omega
  · exact Nat.le_of_lt (h.lost hfront)

section Lost

variable {done' : PartialTable} (hdone : Progress set front done)
  (hlost : ¬ RolesKept (front ++ [slot]))

include hdone hlost

/-- If the attribute of a slot is kept, then a verbatim slot was missing before. -/
theorem Progress.addVerbatim_of_lost {info : Bytes}
    (hfirst : ∀ r, slot = .annotations r → ∀ s ∈ front, s.name ≠ r.attributeName)
    (hkept : IsKept done slot.name)
    (hslots : done'.slotsReversed = .verbatim slot.name info :: done.slotsReversed) :
    Progress set (front ++ [slot]) done' := by
  -- The slot is verbatim, for annotations would have been the first of their name.
  have hverbatim : slot.isVerbatim = true := by
    cases slot with
    | verbatim name body => rfl
    | annotations r =>
      have hmem := hkept r (Retention.ofAttributeName?_attributeName r)
      obtain ⟨s, hs, hname⟩ := hdone.named r hmem
      exact absurd hname (hfirst r rfl s hs)
  have hfrontLost : ¬ RolesKept front := by
    intro hfront
    refine hlost (rolesKept_concat_iff.2 ⟨hfront, fun r _ hr => ?_⟩)
    have hmem := hkept r hr
    rw [hdone.kept hfront] at hmem
    exact List.mem_reverse.1 hmem
  refine ⟨fun r hr => ?_, fun hall => absurd hall hlost, fun _ => ?_⟩
  · rw [hslots, List.mem_cons] at hr
    obtain ⟨s, hs, hname⟩ := hdone.named r (hr.resolve_left nofun)
    exact ⟨s, List.mem_append_left _ hs, hname⟩
  · have hless := hdone.lost hfrontLost
    rw [hslots, List.filter_cons_of_pos rfl, List.filter_append,
      List.filter_cons_of_pos hverbatim, List.length_append]
    simpa using hless

/-- If annotations are read, then a verbatim slot is lost now, or one was missing before. -/
theorem Progress.addAnnotations_of_lost {r : Retention}
    (hr : Retention.ofAttributeName? slot.name = some r)
    (hslots : done'.slotsReversed = .annotations r :: done.slotsReversed) :
    Progress set (front ++ [slot]) done' := by
  refine ⟨fun s hs => ?_, fun hall => absurd hall hlost, fun _ => ?_⟩
  · rw [hslots, List.mem_cons] at hs
    rcases hs with hs | hs
    · refine ⟨slot, by simp, ?_⟩
      rw [AttributeSlot.annotations.inj hs, Retention.attributeName_of_ofAttributeName? hr]
    · obtain ⟨earlier, hearlier, hname⟩ := hdone.named s hs
      exact ⟨earlier, List.mem_append_left _ hearlier, hname⟩
  · have hcount := hdone.verbatim_le
    rw [hslots, List.filter_cons_of_neg (by simp [AttributeSlot.isVerbatim]), List.filter_append,
      List.length_append]
    cases slot with
    | verbatim name body =>
      rw [List.filter_cons_of_pos rfl]
      simp only [List.filter_nil, List.length_singleton]
      omega
    | annotations s =>
      have hfrontLost : ¬ RolesKept front := fun hfront =>
        hlost (rolesKept_concat_iff.2 ⟨hfront, keepsRole_annotations front s⟩)
      exact Nat.lt_of_lt_of_le (hdone.lost hfrontLost) (Nat.le_add_right _ _)

end Lost

/-- Any other attribute takes a verbatim slot away or finds that one is missing. -/
theorem meets_attributeInto_of_lost (hsize : pool.size ≤ maxWord)
    (hfirst : ∀ r, slot = .annotations r → ∀ s ∈ front, s.name ≠ r.attributeName)
    (hlost : ¬ RolesKept (front ++ [slot])) (hdone : Progress set front done)
    (h : Interning.Gives (Interning.slotBytes set slot) pool part) :
    Meets (attributeInto pool done) part False (Progress set (front ++ [slot])) := by
  obtain ⟨i, info, hi, -, hpart⟩ := Interning.gives_slotBytes_iff.1 h
  refine meets_attributeInto (Interning.utf8_of_gives hsize hi) hpart fun size start => ?_
  refine (meets_takeAttribute size start info).mono id fun done' hdone' => ?_
  rcases hdone' with ⟨hkept, hslots⟩ | ⟨r, hr, hslots⟩
  · exact hdone.addVerbatim_of_lost hlost hfirst hkept hslots
  · exact hdone.addAnnotations_of_lost hlost hr hslots

end Written

/-- One attribute more of a written table is read. -/
theorem meets_attributeInto_of_progress (hsize : pool.size ≤ maxWord) {t : AttributeTable}
    (hwf : t.IsWellFormed) {front back : List AttributeSlot} {slot : AttributeSlot} {part : Bytes}
    (hsplit : t.writtenSlots = front ++ slot :: back) (hdone : Progress t.annotations front done)
    (h : Interning.Gives (Interning.slotBytes t.annotations slot) pool part) :
    Meets (attributeInto pool done) part t.KeepsRoles
      (Progress t.annotations (front ++ [slot])) := by
  have hwritten := hwf.annotations.of_perm hwf.perm_regrouped
  have hordered := hwf.isOrdered_writtenSlots
  rw [hsplit] at hordered
  by_cases hkept : RolesKept (front ++ [slot])
  · obtain ⟨hfront, hkeeps⟩ := rolesKept_concat_iff.1 hkept
    rw [hdone.kept hfront]
    have hentries : t.regrouped.annotations.entries
        = (front ++ [slot]).flatMap (held t.annotations)
          ++ back.flatMap (held t.annotations) := by
      show t.writtenSlots.flatMap _ = _
      rw [hsplit]
      simp
    refine (meets_attributeInto_of_keepsRole hsize hkeeps ?_ ?_ ?_ h _).mono id ?_
    · intro r hr hmem
      subst hr
      exact hordered.not_mem_of_concat hmem rfl
    · intro a ha
      exact hwritten.entries a (by rw [hentries]; simp [ha])
    · have hnodup := hwritten.kinds_nodup
      rw [AnnotationSet.kinds, hentries, List.map_append] at hnodup
      exact (List.nodup_append.1 hnodup).1
    · intro done' hdone'
      rw [hdone']
      exact progress_collected hkept
  · refine (meets_attributeInto_of_lost hsize ?_ hkept hdone h).mono ?_ fun _ => id
    · intro r hr s hs
      subst hr
      exact hordered.not_mem_of_concat hs
    · intro hall
      rw [AttributeTable.KeepsRoles, hsplit, ← List.singleton_append, ← List.append_assoc] at hall
      exact hkept hall.of_append

/-- The bytes of a well-formed table are read as the regrouped table if roles are kept, and
otherwise, if at all, as a table with fewer verbatim slots. -/
theorem meets_attributes (hsize : pool.size ≤ maxWord) {t : AttributeTable} (hwf : t.IsWellFormed)
    {bytes : Bytes} (h : Interning.Gives (Interning.attributes t) pool bytes) :
    Meets (attributes pool) bytes t.KeepsRoles t.ReadAs := by
  obtain ⟨hfits, parts, hparts, rfl⟩ := Interning.gives_attributes_iff.1 h
  refine (reads_word16 _).bind_meets ?_
  rw [toNat_tableCount hfits]
  have hloop : Meets ((List.replicate t.writtenSlots.length ()).foldlM
      (fun done _ => attributeInto pool done) (⟨.empty, []⟩ : PartialTable)) parts.flatten
      t.KeepsRoles (Progress t.annotations t.writtenSlots) :=
    meets_foldlM (I := Progress t.annotations) hparts (progress_collected rolesKept_nil)
      fun front slot back part done hsplit hpart hdone =>
        meets_attributeInto_of_progress hsize hwf hsplit hdone hpart
  refine hloop.map fun done hdone => ⟨fun hkept => ?_, fun hcount => ?_⟩
  · rw [hdone.kept hkept]
    simp [collected, AttributeTable.regrouped]
  · by_contra hlost
    have hless := hdone.lost hlost
    have hwrittenCount : (t.writtenSlots.filter AttributeSlot.isVerbatim).length
        = t.verbatim.length := congrArg List.length t.verbatim_regrouped
    rw [AttributeTable.verbatim, List.filter_reverse, List.length_reverse] at hcount
    omega

/-! ## A table that was read -/

/-- The table of what has been read so far. -/
def PartialTable.table (done : PartialTable) : AttributeTable :=
  ⟨done.annotations, done.slotsReversed.reverse⟩

/-- What is known of a table that was read, and of the bytes of its attributes. -/
structure Recovered (pool : ConstantPool) (t : AttributeTable) (parts : List Bytes) : Prop where
  wellFormed : t.IsWellFormed
  grouped : t.IsGrouped
  restores : List.Forall₂ (fun slot part =>
    Interning.Restores (Interning.slotBytes t.annotations slot) pool part) t.slots parts

theorem recovered_empty (pool : ConstantPool) : Recovered pool .empty [] where
  wellFormed := ⟨AnnotationSet.isWellFormed_empty, fun _ => Nat.zero_le 1, rolesKept_nil⟩
  grouped := rfl
  restores := .nil

theorem Recovered.addVerbatim {t : AttributeTable} {parts : List Bytes}
    (h : Recovered pool t parts) {info part : Bytes}
    (hkeeps : (AttributeSlot.verbatim name info).KeepsRole t.slots)
    (hpart : Interning.Restores
      (Interning.slotBytes t.annotations (.verbatim name info)) pool part) :
    Recovered pool (t.addVerbatim name info) (parts ++ [part]) where
  wellFormed := h.wellFormed.addVerbatim hkeeps
  grouped := h.grouped.addVerbatim name info
  restores := List.rel_append h.restores (.cons hpart .nil)

theorem Recovered.addAnnotations {t : AttributeTable} {parts : List Bytes}
    (h : Recovered pool t parts) {r : Retention} {as : List AnnotationUse} {part : Bytes}
    (hr : AttributeSlot.annotations r ∉ t.slots) (has : ∀ a ∈ as, a.isWellFormed r 0 = true)
    (hnodup : (⟨t.annotations.entries ++ as⟩ : AnnotationSet).kinds.Nodup)
    (hpart : Interning.Restores
      (Interning.slotBytes (t.addAnnotations r as).annotations (.annotations r)) pool part) :
    Recovered pool (t.addAnnotations r as) (parts ++ [part]) where
  wellFormed := by
    refine h.wellFormed.addAnnotations hr ⟨hnodup, fun a ha => ?_⟩
    rcases List.mem_append.1 ha with ha | ha
    · exact h.wellFormed.annotations.entries a ha
    · have hwf := has a ha
      rwa [AnnotationUse.retention_of_isWellFormed hwf]
  grouped := h.grouped.addAnnotations hr fun a ha =>
    AnnotationUse.retention_of_isWellFormed (has a ha)
  restores := by
    refine List.rel_append ?_ (.cons hpart .nil)
    -- The slots before hold what they held.
    have hslots := (List.forall₂_and_left (p := (· ∈ t.slots)) _ _).2 ⟨fun _ => id, h.restores⟩
    refine hslots.imp fun slot part hslot => ?_
    have hne : slot ≠ .annotations r := fun heq => hr (heq ▸ hslot.1)
    have hheld : slot.held (t.addAnnotations r as).annotations = slot.held t.annotations :=
      AttributeTable.held_addAnnotations hne fun a ha =>
        AnnotationUse.retention_of_isWellFormed (has a ha)
    rw [Interning.slotBytes_congr hheld]
    exact hslot.2

/-- The name, the size and the body of an attribute that was read are those of a written one. -/
theorem ensures_attributeInto {R : Bytes → PartialTable → Prop}
    (hnext : ∀ i name size start info part, pool.utf8 i = .ok name →
      Interning.attributeBytes ⟨i, info⟩ = .ok part →
      Ensures (takeAttribute pool done name size start info) fun bytes done' =>
        R (part ++ bytes) done') :
    Ensures (attributeInto pool done) R := by
  rw [attributeInto_eq]
  refine ensures_lookup.bind ?_
  intro front name hname
  obtain ⟨i, rfl, hi⟩ := hname
  refine ensures_word32.bind ?_
  intro front size hfront
  subst hfront
  refine ensures_offset.bind ?_
  intro front start hfront
  subst hfront
  refine (ensures_bytes size.toNat).bind ?_
  intro info text htext
  obtain ⟨rfl, hlen⟩ := htext
  have hsize : info.length < 0x100000000 := hlen ▸ size.toNat_lt
  have hpart : Interning.attributeBytes ⟨i, info⟩
      = .ok (BigEndian.ofUInt16 i ++ BigEndian.ofUInt32 size ++ info) := by
    rw [Interning.attributeBytes_eq_ok_iff]
    refine ⟨hsize, ?_⟩
    rw [hlen, UInt32.ofNat_toNat]
  refine (hnext i name size start info _ hi hpart).mono fun bytes done' h => ?_
  simpa using h

/-- One attribute more keeps what is known of a table. -/
theorem ensures_attributeInto_recovered {parts : List Bytes}
    (h : Recovered pool done.table parts) :
    Ensures (attributeInto pool done) fun bytes done' =>
      Recovered pool done'.table (parts ++ [bytes])
        ∧ done'.slotsReversed.length = done.slotsReversed.length + 1 := by
  refine ensures_attributeInto fun i name size start info part hi hpart => ?_
  have hrestores : ∀ (set : AnnotationSet) (slot : AttributeSlot), slot.name = name →
      (pool.IsCanonical → Interning.Gives (Interning.slotBody set slot) pool info) →
      Interning.Restores (Interning.slotBytes set slot) pool part := by
    intro set slot hname hbody hpool
    rw [Interning.gives_slotBytes_iff, hname]
    exact ⟨i, info, hpool.gives_utf8 hi, hbody hpool, hpart⟩
  rcases isKept_or done name with hkept | ⟨r, hr, hnot⟩
  · rw [takeAttribute_of_isKept hkept]
    refine ensures_pure ⟨?_, rfl⟩
    have hkeeps : (AttributeSlot.verbatim name info).KeepsRole done.table.slots :=
      fun r _ hr => List.mem_reverse.2 (hkept r hr)
    have hnew := h.addVerbatim hkeeps (hrestores done.annotations (.verbatim name info) rfl
      fun _ => Interning.gives_pure_iff.2 rfl)
    simpa [PartialTable.table, AttributeTable.addVerbatim] using hnew
  · rw [takeAttribute_of_not_isKept hr hnot]
    refine (ensures_within (ensures_annotationsInto done.annotations) info start).bind ?_
    intro front found hfound
    obtain ⟨rfl, hread⟩ := hfound
    split
    · next hunread =>
      obtain ⟨as, hentries, has, hnodup, hbody⟩ := hread hunread
      refine ensures_pure ⟨?_, rfl⟩
      have hrslots : AttributeSlot.annotations r ∉ done.table.slots := fun hmem =>
        hnot (List.mem_reverse.1 hmem)
      have hset : found.1 = ⟨done.annotations.entries ++ as⟩ := by
        rw [← hentries]
      have hheld : (done.table.addAnnotations r as).annotations.withRetention r = as :=
        AttributeTable.withRetention_addAnnotations (h.grouped.withRetention_eq_nil hrslots)
          fun a ha => AnnotationUse.retention_of_isWellFormed (has a ha)
      have hkinds := hnodup h.wellFormed.annotations.kinds_nodup
      rw [hset] at hkinds ⊢
      have hnew := h.addAnnotations hrslots has hkinds (hrestores _ (.annotations r)
        (Retention.attributeName_of_ofAttributeName? hr) fun hpool => by
          rw [Interning.slotBody, hheld]
          exact hbody hpool)
      simpa [PartialTable.table, AttributeTable.addAnnotations] using hnew
    · exact ensures_throw _ _

/-- A table that was read is well-formed and in the order of its slots, and it is restored if no
slot is empty. -/
theorem ensures_attributes : Ensures (attributes pool) fun bytes t =>
    t.IsWellFormed ∧ t.IsGrouped ∧
      (t.HasNoEmptySlot → Interning.Restores (Interning.attributes t) pool bytes) := by
  refine ensures_word16.bind ?_
  intro front count hfront
  subst hfront
  have hinit : Recovered pool (PartialTable.table ⟨.empty, []⟩) [] := recovered_empty pool
  refine (ensures_foldlM (I := fun n taken (done : PartialTable) => ∃ parts : List Bytes,
      taken = parts.flatten ∧ done.slotsReversed.length = n ∧ Recovered pool done.table parts)
      ⟨[], rfl, rfl, hinit⟩ ?_ count.toNat).map ?_
  · intro n taken done hdone
    obtain ⟨parts, rfl, hlen, hrecovered⟩ := hdone
    refine (ensures_attributeInto_recovered hrecovered).mono ?_
    intro bytes done' hdone'
    exact ⟨parts ++ [bytes], by simp, by rw [hdone'.2, hlen], hdone'.1⟩
  · intro bytes done hdone
    obtain ⟨parts, rfl, hlen, hrecovered⟩ := hdone
    refine ⟨hrecovered.wellFormed, hrecovered.grouped, fun hempty hpool => ?_⟩
    have hslots : done.table.writtenSlots = done.table.slots :=
      hrecovered.grouped.writtenSlots_eq hempty
    have hcount : done.table.slots.length = count.toNat := by
      rw [← hlen, PartialTable.table, List.length_reverse]
    have hword := count.toNat_lt
    show Interning.Gives (Interning.attributes done.table) pool _
    rw [Interning.gives_attributes_iff, hslots, hcount, UInt16.ofNat_toNat]
    refine ⟨?_, parts, hrecovered.restores.imp fun slot part h => h hpool, rfl⟩
    simp only [maxWord]
    omega

end AnnotationGraft.Scan
