import AnnotationGraft.ClassFile.Encode
import AnnotationGraft.Proofs.Annotations.WellFormed
import Mathlib.Data.List.Induction

/-!
# The slots of an attribute table

`AttributeTable.writtenSlots` are the slots for which something is written: the slots of the table
less those without annotations, and a slot at the end for annotations that had none.  The bytes of a
table depend on these slots and on the annotations of each retention only, and
`AttributeTable.regrouped` is the table that the bytes stand for: its slots are the written ones,
and its annotations stand in the order of their slots.

A reader takes the first attribute of an annotation attribute's name for annotations.  `RolesKept`
says that no verbatim slot is taken so, and `IsOrdered` that every annotation slot is.
-/

namespace AnnotationGraft

theorem Retention.attributeName_injective {r s : Retention}
    (h : r.attributeName = s.attributeName) : r = s := by
  have hr := ofAttributeName?_attributeName r
  rw [h, ofAttributeName?_attributeName] at hr
  exact (Option.some.inj hr).symm

namespace AttributeSlot

/-! ## One slot -/

/-- The annotations of a set that the slot holds. -/
def held (set : AnnotationSet) : AttributeSlot → List AnnotationUse
  | annotations r => set.withRetention r
  | verbatim _ _ => []

/-- Whether anything is written for the slot. -/
def isWritten (set : AnnotationSet) (slot : AttributeSlot) : Bool :=
  slot.isVerbatim || !(slot.held set).isEmpty

/-- Whether a reader that has met the slots `before` takes the slot for what it is.  It takes a
verbatim slot of an annotation attribute's name for annotations if there are none yet. -/
def KeepsRole (before : List AttributeSlot) (slot : AttributeSlot) : Prop :=
  ∀ r, slot.isVerbatim = true → Retention.ofAttributeName? slot.name = some r →
    annotations r ∈ before

theorem keepsRole_annotations (before : List AttributeSlot) (r : Retention) :
    (annotations r).KeepsRole before := nofun

theorem isWritten_annotations_iff {set : AnnotationSet} {r : Retention} :
    (annotations r).isWritten set = true ↔ set.withRetention r ≠ [] := by
  simp [isWritten, held, isVerbatim]

/-! ## Slots in order -/

/-- Every slot keeps its role after those before it. -/
def RolesKept (slots : List AttributeSlot) : Prop :=
  ∀ front slot back, slots = front ++ slot :: back → slot.KeepsRole front

/-- Every annotation slot is the first slot of its name. -/
def IsOrdered (slots : List AttributeSlot) : Prop :=
  slots.Pairwise fun earlier later => ∀ r, later = annotations r → earlier.name ≠ r.attributeName

theorem rolesKept_nil : RolesKept [] := by
  intro front slot back h
  simp at h

theorem RolesKept.of_append {front back : List AttributeSlot} (h : RolesKept (front ++ back)) :
    RolesKept front := by
  intro before slot after hfront
  exact h before slot (after ++ back) (by rw [hfront, List.append_assoc, List.cons_append])

theorem rolesKept_concat_iff {slots : List AttributeSlot} {slot : AttributeSlot} :
    RolesKept (slots ++ [slot]) ↔ RolesKept slots ∧ slot.KeepsRole slots := by
  constructor
  · intro h
    exact ⟨h.of_append, h slots slot [] rfl⟩
  · intro h front s back hs
    rcases List.eq_nil_or_concat back with rfl | ⟨back, last, rfl⟩
    · obtain ⟨rfl, hslot⟩ := List.append_inj' hs rfl
      rw [List.cons.injEq] at hslot
      rw [← hslot.1]
      exact h.2
    · rw [List.concat_eq_append, ← List.cons_append, ← List.append_assoc] at hs
      exact h.1 front s back (List.append_inj' hs rfl).1

/-- Roles are kept where no verbatim slot bears the name of an annotation attribute. -/
theorem rolesKept_of_forall {slots : List AttributeSlot}
    (h : ∀ name info, verbatim name info ∈ slots → Retention.ofAttributeName? name = none) :
    RolesKept slots := by
  intro front slot back hslots r hverbatim hname
  cases slot with
  | annotations s => cases hverbatim
  | verbatim name info =>
    have hnone := h name info (by rw [hslots]; simp)
    rw [show Retention.ofAttributeName? name = some r from hname] at hnone
    cases hnone

/-- Annotation slots at the end change no role. -/
theorem RolesKept.append_annotations {slots : List AttributeSlot} (h : RolesKept slots)
    (rs : List Retention) : RolesKept (slots ++ rs.map annotations) := by
  induction rs generalizing slots with
  | nil => simpa using h
  | cons r rs ih =>
    have hstep : RolesKept (slots ++ [annotations r]) :=
      rolesKept_concat_iff.2 ⟨h, keepsRole_annotations slots r⟩
    simpa using ih hstep

/-- Where roles are kept, a slot of an annotation attribute's name comes with the slot of the
annotations. -/
theorem RolesKept.annotations_mem {slots : List AttributeSlot} (h : RolesKept slots)
    {slot : AttributeSlot} (hslot : slot ∈ slots) {r : Retention}
    (hname : slot.name = r.attributeName) : annotations r ∈ slots := by
  cases slot with
  | annotations s =>
    rwa [← Retention.attributeName_injective hname]
  | verbatim name info =>
    obtain ⟨front, back, rfl⟩ := List.append_of_mem hslot
    have hmem := h front (verbatim name info) back rfl r rfl
      (by rw [hname, Retention.ofAttributeName?_attributeName])
    exact List.mem_append_left _ hmem

/-- Where roles are kept, annotation slots that occur once are the first of their names. -/
theorem RolesKept.isOrdered {slots : List AttributeSlot} (h : RolesKept slots)
    (hone : ∀ r, slots.count (annotations r) ≤ 1) : IsOrdered slots := by
  induction slots using List.reverseRecOn with
  | nil => exact List.Pairwise.nil
  | append_singleton slots slot ih =>
    obtain ⟨hslots, -⟩ := rolesKept_concat_iff.1 h
    have hless : ∀ r, slots.count (annotations r) ≤ 1 := fun r =>
      Nat.le_trans (by rw [List.count_append]; exact Nat.le_add_right _ _) (hone r)
    refine List.pairwise_append.2 ⟨ih hslots hless, List.pairwise_singleton _ _, ?_⟩
    intro earlier hearlier later hlater r hr hname
    obtain rfl : later = slot := List.mem_singleton.1 hlater
    -- The name would bring a second slot of the retention.
    have hmem := List.count_pos_iff.2 (hslots.annotations_mem hearlier hname)
    have hcount := hone r
    rw [List.count_append, hr, List.count_singleton_self] at hcount
    omega

theorem IsOrdered.not_mem_of_concat {front back : List AttributeSlot} {r : Retention}
    (h : IsOrdered (front ++ annotations r :: back)) {slot : AttributeSlot} (hslot : slot ∈ front) :
    slot.name ≠ r.attributeName :=
  (List.pairwise_append.1 h).2.2 slot hslot (annotations r) List.mem_cons_self r rfl

/-! ## The annotations that slots hold -/

theorem filter_held_of_ne {set : AnnotationSet} {r : Retention} {slot : AttributeSlot}
    (h : slot ≠ annotations r) :
    (slot.held set).filter (fun a => a.retention = r) = [] := by
  cases slot with
  | verbatim name info => rfl
  | annotations s =>
    rw [List.filter_eq_nil_iff]
    intro a ha
    have has : a.retention = s := by
      simpa [held, AnnotationSet.withRetention] using (List.mem_filter.1 ha).2
    rw [has, decide_eq_true_eq]
    exact fun hsr => h (by rw [hsr])

theorem filter_flatMap_held_of_not_mem {set : AnnotationSet} {r : Retention}
    {slots : List AttributeSlot} (h : annotations r ∉ slots) :
    (slots.flatMap (held set)).filter (fun a => a.retention = r) = [] := by
  rw [List.filter_flatMap, List.flatMap_eq_nil_iff]
  intro slot hslot
  exact filter_held_of_ne fun heq => h (heq ▸ hslot)

/-- Slots for which nothing is written hold nothing. -/
theorem flatMap_held_filter (set : AnnotationSet) (slots : List AttributeSlot) :
    (slots.filter (isWritten set)).flatMap (held set) = slots.flatMap (held set) := by
  induction slots with
  | nil => rfl
  | cons slot slots ih =>
    by_cases hslot : slot.isWritten set = true
    · rw [List.filter_cons_of_pos hslot, List.flatMap_cons, List.flatMap_cons, ih]
    · have hnone : slot.held set = [] := by
        cases slot with
        | verbatim name info => rfl
        | annotations r => rwa [isWritten_annotations_iff, not_not] at hslot
      rw [List.filter_cons_of_neg hslot, List.flatMap_cons, ih, hnone, List.nil_append]

/-- In the order of their slots, the annotations of a retention are those of the set. -/
theorem filter_flatMap_held {set : AnnotationSet} {r : Retention} {slots : List AttributeSlot}
    (hordered : IsOrdered slots) (h : annotations r ∈ slots) :
    (slots.flatMap (held set)).filter (fun a => a.retention = r) = set.withRetention r := by
  induction slots with
  | nil => simp at h
  | cons slot slots ih =>
    obtain ⟨hfirst, hrest⟩ := List.pairwise_cons.1 hordered
    rw [List.flatMap_cons, List.filter_append]
    by_cases hslot : slot = annotations r
    · have hnot : annotations r ∉ slots := fun hmem =>
        hfirst _ hmem r rfl (by rw [hslot]; rfl)
      rw [filter_flatMap_held_of_not_mem hnot, List.append_nil, hslot]
      simp [held, AnnotationSet.withRetention]
    · have hmem : annotations r ∈ slots :=
        (List.mem_cons.1 h).resolve_left fun heq => hslot heq.symm
      rw [filter_held_of_ne hslot, ih hrest hmem, List.nil_append]

end AttributeSlot

namespace AttributeTable

open AttributeSlot (held isWritten RolesKept IsOrdered isWritten_annotations_iff filter_flatMap_held
  filter_flatMap_held_of_not_mem flatMap_held_filter)

/-! ## Written slots -/

/-- The slots for which something is written, in order. -/
def writtenSlots (t : AttributeTable) : List AttributeSlot :=
  (t.slots ++ (Interning.withoutSlot t.slots).map AttributeSlot.annotations).filter
    (isWritten t.annotations)

/-- The table that the bytes of a table stand for. -/
def regrouped (t : AttributeTable) : AttributeTable where
  annotations := ⟨t.writtenSlots.flatMap (held t.annotations)⟩
  slots := t.writtenSlots

/-- What every table of a class has that was read. -/
structure IsWellFormed (t : AttributeTable) : Prop where
  annotations : t.annotations.IsWellFormed
  /-- There is at most one slot for the annotations of a retention. -/
  atMostOne : ∀ r, t.slots.count (.annotations r) ≤ 1
  /-- A verbatim slot of an annotation attribute's name follows the slot of the annotations. -/
  rolesKept : RolesKept t.slots

/-- Whether a reader takes every slot for what was written. -/
def KeepsRoles (t : AttributeTable) : Prop := RolesKept t.writtenSlots

/-- What is read of the bytes of a table: the regrouped table, unless a role was lost, and then that
shows in the number of verbatim slots. -/
structure ReadAs (t t' : AttributeTable) : Prop where
  eq_regrouped : t.KeepsRoles → t' = t.regrouped
  keepsRoles : t'.verbatim.length = t.verbatim.length → t.KeepsRoles

/-- Before a verbatim slot of an annotation attribute's name, annotations are written. -/
def RolesStay (t : AttributeTable) : Prop :=
  ∀ name info r, .verbatim name info ∈ t.slots → Retention.ofAttributeName? name = some r →
    t.annotations.withRetention r ≠ []

theorem mem_withoutSlot_iff {slots : List AttributeSlot} {r : Retention} :
    r ∈ Interning.withoutSlot slots ↔ AttributeSlot.annotations r ∉ slots := by
  cases r <;> simp [Interning.withoutSlot]

/-- Annotations are written for the retentions that the set has. -/
theorem annotations_mem_writtenSlots_iff {t : AttributeTable} {r : Retention} :
    .annotations r ∈ t.writtenSlots ↔ t.annotations.withRetention r ≠ [] := by
  rw [writtenSlots, List.mem_filter, isWritten_annotations_iff, and_iff_right_iff_imp,
    List.mem_append, List.mem_map]
  intro _
  by_cases h : AttributeSlot.annotations r ∈ t.slots
  · exact .inl h
  · exact .inr ⟨r, mem_withoutSlot_iff.2 h, rfl⟩

/-- Every verbatim slot is written, and no slot becomes one. -/
theorem verbatim_regrouped (t : AttributeTable) : t.regrouped.verbatim = t.verbatim := by
  have hwritten : ∀ slot : AttributeSlot,
      (slot.isVerbatim && slot.isWritten t.annotations) = slot.isVerbatim := by
    intro slot
    cases slot <;> simp [isWritten, AttributeSlot.isVerbatim]
  have hadded : ((Interning.withoutSlot t.slots).map AttributeSlot.annotations).filter
      AttributeSlot.isVerbatim = [] := by
    rw [List.filter_eq_nil_iff]
    intro slot hslot
    obtain ⟨r, -, rfl⟩ := List.mem_map.1 hslot
    simp [AttributeSlot.isVerbatim]
  simp only [regrouped, verbatim, writtenSlots, List.filter_filter, hwritten, List.filter_append,
    hadded, List.append_nil]

namespace IsWellFormed

variable {t : AttributeTable}

/-- A table stays well-formed with other annotations. -/
theorem withAnnotations (h : t.IsWellFormed) {set : AnnotationSet} (hset : set.IsWellFormed) :
    ({ t with annotations := set } : AttributeTable).IsWellFormed where
  annotations := hset
  atMostOne := h.atMostOne
  rolesKept := h.rolesKept

/-- The written slots of a well-formed table are ordered. -/
theorem isOrdered_writtenSlots (h : t.IsWellFormed) : IsOrdered t.writtenSlots := by
  refine List.Pairwise.filter _ (List.pairwise_append.2 ⟨h.rolesKept.isOrdered h.atMostOne, ?_, ?_⟩)
  · rw [List.pairwise_map]
    have hnodup : (Interning.withoutSlot t.slots).Nodup := List.Nodup.filter _ (by decide)
    refine hnodup.imp fun hne r hr hname => hne ?_
    rw [AttributeSlot.annotations.injEq] at hr
    rw [hr]
    exact Retention.attributeName_injective hname
  · intro earlier hearlier later hlater r hr hname
    obtain ⟨s, hs, rfl⟩ := List.mem_map.1 hlater
    obtain rfl := AttributeSlot.annotations.inj hr
    exact mem_withoutSlot_iff.1 hs (h.rolesKept.annotations_mem hearlier hname)

theorem withRetention_regrouped (h : t.IsWellFormed) (r : Retention) :
    t.regrouped.annotations.withRetention r = t.annotations.withRetention r := by
  by_cases hr : AttributeSlot.annotations r ∈ t.writtenSlots
  · exact filter_flatMap_held h.isOrdered_writtenSlots hr
  · have hnone : t.annotations.withRetention r = [] := by
      by_contra hne
      exact hr (annotations_mem_writtenSlots_iff.2 hne)
    rw [hnone]
    exact filter_flatMap_held_of_not_mem hr

/-- Regrouping only changes the order of the annotations. -/
theorem perm_regrouped (h : t.IsWellFormed) :
    t.annotations.entries.Perm t.regrouped.annotations.entries :=
  AnnotationSet.perm_of_withRetention fun r => (h.withRetention_regrouped r).symm

theorem get?_regrouped (h : t.IsWellFormed) (kind : String) :
    t.regrouped.annotations.get? kind = t.annotations.get? kind :=
  (AnnotationSet.get?_eq_of_perm h.perm_regrouped h.annotations.kinds_nodup kind).symm

theorem held_regrouped (h : t.IsWellFormed) (slot : AttributeSlot) :
    slot.held t.regrouped.annotations = slot.held t.annotations := by
  cases slot with
  | annotations r => exact h.withRetention_regrouped r
  | verbatim name info => rfl

/-- Nothing more and nothing less is written for the regrouped table. -/
theorem writtenSlots_regrouped (h : t.IsWellFormed) :
    t.regrouped.writtenSlots = t.writtenSlots := by
  have hwritten : isWritten t.regrouped.annotations = isWritten t.annotations := by
    funext slot
    rw [isWritten, isWritten, h.held_regrouped]
  have hadded : ((Interning.withoutSlot t.writtenSlots).map AttributeSlot.annotations).filter
      (isWritten t.annotations) = [] := by
    rw [List.filter_eq_nil_iff]
    intro slot hslot
    obtain ⟨r, hr, rfl⟩ := List.mem_map.1 hslot
    rw [isWritten_annotations_iff, ← annotations_mem_writtenSlots_iff]
    exact mem_withoutSlot_iff.1 hr
  rw [writtenSlots, hwritten]
  show (t.writtenSlots ++ (Interning.withoutSlot t.writtenSlots).map _).filter _ = _
  rw [List.filter_append, hadded, List.append_nil, writtenSlots, List.filter_filter]
  simp

/-- Roles are kept in what is written if annotations precede every slot that needs them. -/
theorem keepsRoles (h : t.IsWellFormed) (hstay : t.RolesStay) : t.KeepsRoles := by
  have hall := h.rolesKept.append_annotations (Interning.withoutSlot t.slots)
  intro front slot back hsplit r hverbatim hname
  obtain ⟨l, rest, hl, rfl, hrest⟩ := List.filter_eq_append_iff.1 hsplit
  obtain ⟨skipped, l', rfl, hskipped, -, -⟩ := List.filter_eq_cons_iff.1 hrest
  rw [← List.append_assoc] at hl
  have hmem := hall (l ++ skipped) slot l' hl r hverbatim hname
  have hwritten : (AttributeSlot.annotations r).isWritten t.annotations = true := by
    rw [isWritten_annotations_iff]
    cases slot with
    | annotations s => cases hverbatim
    | verbatim name info =>
      have hslot : AttributeSlot.verbatim name info
          ∈ t.slots ++ (Interning.withoutSlot t.slots).map AttributeSlot.annotations := by
        rw [hl]
        simp
      rcases List.mem_append.1 hslot with hslot | hslot
      · exact hstay name info r hslot hname
      · obtain ⟨s, -, hs⟩ := List.mem_map.1 hslot
        cases hs
  rcases List.mem_append.1 hmem with hfront | hskip
  · exact List.mem_filter.2 ⟨hfront, hwritten⟩
  · exact absurd hwritten (hskipped _ hskip)

end IsWellFormed

/-- Where roles are kept in what is written, annotations precede every slot that needs them. -/
theorem KeepsRoles.rolesStay {t : AttributeTable} (h : t.KeepsRoles) : t.RolesStay := by
  intro name info r hmem hname
  have hwritten : AttributeSlot.verbatim name info ∈ t.writtenSlots :=
    List.mem_filter.2 ⟨List.mem_append_left _ hmem, rfl⟩
  exact annotations_mem_writtenSlots_iff.1
    (RolesKept.annotations_mem h hwritten (Retention.attributeName_of_ofAttributeName? hname).symm)

/-! ## Tables in the order of their slots -/

/-- The annotations stand in the order of their slots, and all of them have one. -/
def IsGrouped (t : AttributeTable) : Prop :=
  t.annotations.entries = t.slots.flatMap (held t.annotations)

/-- Every annotation slot holds an annotation. -/
def HasNoEmptySlot (t : AttributeTable) : Prop :=
  ∀ r, .annotations r ∈ t.slots → t.annotations.withRetention r ≠ []

/-- The table without the annotation slots that hold nothing. -/
def withoutEmptySlots (t : AttributeTable) : AttributeTable :=
  { t with slots := t.slots.filter (isWritten t.annotations) }

/-- A further attribute that is kept as it is. -/
def addVerbatim (t : AttributeTable) (name : String) (info : Bytes) : AttributeTable :=
  ⟨t.annotations, t.slots ++ [.verbatim name info]⟩

/-- A further attribute of annotations. -/
def addAnnotations (t : AttributeTable) (r : Retention) (as : List AnnotationUse) :
    AttributeTable :=
  ⟨⟨t.annotations.entries ++ as⟩, t.slots ++ [.annotations r]⟩

section Growth

variable {t : AttributeTable} {r : Retention} {as : List AnnotationUse}

theorem IsGrouped.annotations_mem (h : t.IsGrouped) {a : AnnotationUse}
    (ha : a ∈ t.annotations.entries) : AttributeSlot.annotations a.retention ∈ t.slots := by
  rw [h, List.mem_flatMap] at ha
  obtain ⟨slot, hslot, ha⟩ := ha
  cases slot with
  | verbatim name info => simp [held] at ha
  | annotations s =>
    have hs : a.retention = s := by
      simpa using (List.mem_filter.1 ha).2
    rwa [hs]

/-- A retention without a slot has no annotations. -/
theorem IsGrouped.withRetention_eq_nil (h : t.IsGrouped)
    (hr : AttributeSlot.annotations r ∉ t.slots) : t.annotations.withRetention r = [] := by
  rw [AnnotationSet.withRetention, List.filter_eq_nil_iff]
  intro a ha hret
  rw [decide_eq_true_eq] at hret
  exact hr (hret ▸ h.annotations_mem ha)

/-- Of the slots of a grouped table, those that hold nothing are not written, and none is added. -/
theorem IsGrouped.writtenSlots_eq_filter (h : t.IsGrouped) :
    t.writtenSlots = t.slots.filter (isWritten t.annotations) := by
  have hadded : ((Interning.withoutSlot t.slots).map AttributeSlot.annotations).filter
      (isWritten t.annotations) = [] := by
    rw [List.filter_eq_nil_iff]
    intro slot hslot
    obtain ⟨r, hr, rfl⟩ := List.mem_map.1 hslot
    rw [isWritten_annotations_iff, not_not]
    exact h.withRetention_eq_nil (mem_withoutSlot_iff.1 hr)
  rw [writtenSlots, List.filter_append, hadded, List.append_nil]

/-- If no slot is empty, the slots are written as they are. -/
theorem IsGrouped.writtenSlots_eq (h : t.IsGrouped) (hempty : t.HasNoEmptySlot) :
    t.writtenSlots = t.slots := by
  rw [h.writtenSlots_eq_filter, List.filter_eq_self]
  intro slot hslot
  cases slot with
  | verbatim name info => rfl
  | annotations r => exact isWritten_annotations_iff.2 (hempty r hslot)

/-- Leaving out the slots of a grouped table that hold nothing is all that regrouping does. -/
theorem IsGrouped.regrouped_eq (h : t.IsGrouped) : t.regrouped = t.withoutEmptySlots := by
  rw [regrouped, h.writtenSlots_eq_filter, flatMap_held_filter, ← h]
  rfl

theorem IsWellFormed.addVerbatim (h : t.IsWellFormed) {name : String} {info : Bytes}
    (hkeeps : (AttributeSlot.verbatim name info).KeepsRole t.slots) :
    (t.addVerbatim name info).IsWellFormed where
  annotations := h.annotations
  atMostOne s := by
    rw [AttributeTable.addVerbatim, List.count_append, List.count_singleton]
    exact h.atMostOne s
  rolesKept := AttributeSlot.rolesKept_concat_iff.2 ⟨h.rolesKept, hkeeps⟩

theorem IsGrouped.addVerbatim (h : t.IsGrouped) (name : String) (info : Bytes) :
    (t.addVerbatim name info).IsGrouped := by
  rw [IsGrouped, AttributeTable.addVerbatim, List.flatMap_append, ← h]
  simp [held]

/-- The annotations of a further attribute are those of its retention. -/
theorem withRetention_addAnnotations (hr : t.annotations.withRetention r = [])
    (has : ∀ a ∈ as, a.retention = r) :
    (t.addAnnotations r as).annotations.withRetention r = as := by
  have hself : as.filter (fun a => a.retention = r) = as := by
    rw [List.filter_eq_self]
    exact fun a ha => decide_eq_true (has a ha)
  rw [addAnnotations, AnnotationSet.withRetention, List.filter_append, hself]
  exact (congrArg (· ++ as) hr).trans (List.nil_append as)

/-- A further attribute of annotations changes no other slot. -/
theorem held_addAnnotations {slot : AttributeSlot} (hslot : slot ≠ .annotations r)
    (has : ∀ a ∈ as, a.retention = r) :
    slot.held (t.addAnnotations r as).annotations = slot.held t.annotations := by
  cases slot with
  | verbatim name info => rfl
  | annotations s =>
    have hnone : as.filter (fun a => a.retention = s) = [] := by
      rw [List.filter_eq_nil_iff]
      intro a ha hret
      rw [decide_eq_true_eq, has a ha] at hret
      exact hslot (by rw [hret])
    rw [addAnnotations, held, AnnotationSet.withRetention, List.filter_append, hnone,
      List.append_nil]
    rfl

theorem IsGrouped.addAnnotations (h : t.IsGrouped) (hr : AttributeSlot.annotations r ∉ t.slots)
    (has : ∀ a ∈ as, a.retention = r) : (t.addAnnotations r as).IsGrouped := by
  have hold : t.slots.flatMap (held (t.addAnnotations r as).annotations)
      = t.slots.flatMap (held t.annotations) := by
    refine List.flatMap_congr fun slot hslot => held_addAnnotations ?_ has
    exact fun heq => hr (heq ▸ hslot)
  have hnew := withRetention_addAnnotations (h.withRetention_eq_nil hr) has
  rw [IsGrouped]
  show _ = (t.slots ++ [AttributeSlot.annotations r]).flatMap _
  rw [List.flatMap_append, hold, ← h, List.flatMap_singleton, held, hnew]
  rfl

theorem IsWellFormed.addAnnotations (h : t.IsWellFormed)
    (hr : AttributeSlot.annotations r ∉ t.slots)
    (hset : (⟨t.annotations.entries ++ as⟩ : AnnotationSet).IsWellFormed) :
    (t.addAnnotations r as).IsWellFormed where
  annotations := hset
  atMostOne s := by
    have hs := h.atMostOne s
    rw [AttributeTable.addAnnotations, List.count_append, List.count_singleton]
    split
    · next heq =>
      obtain rfl := AttributeSlot.annotations.inj (eq_of_beq heq)
      have hnone := List.count_eq_zero_of_not_mem hr
      omega
    · exact hs
  rolesKept := AttributeSlot.rolesKept_concat_iff.2
    ⟨h.rolesKept, AttributeSlot.keepsRole_annotations _ r⟩

end Growth

end AttributeTable

end AnnotationGraft
