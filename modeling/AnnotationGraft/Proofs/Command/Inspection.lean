import AnnotationGraft.Command.Inspection
import AnnotationGraft.Proofs.Annotations.Set
import AnnotationGraft.Proofs.Graft.Grafting

/-!
# What an inspection shows of fusion

An inspection should show with each member what grafting copies of it: nothing, unless the request
of the class includes the member.  What it looks for instead is a requested member of the same
identity, and a class may have several members of one identity.

`Settings.ShowsFusions` is what an inspection should show.  It does so exactly when no annotated
member without the fuse marker shares its identity with a requested one, and so of every class
whose members have identities of their own (`Settings.showsFusions_iff`).
-/

namespace AnnotationGraft

namespace Settings

variable {settings : Settings} {c : ClassFile} {m : Member}

/-- The request of the class includes the member. -/
def Requests (settings : Settings) (c : ClassFile) (m : Member) : Prop :=
  ∃ request, settings.request c = .ok request ∧ m ∈ request.members

/-- What grafting copies of a member, as an inspection writes it. -/
def copiedForms (settings : Settings) (m : Member) : List String :=
  (m.attributes.annotations.entries.filter fun a => a.kind != settings.fuseMarker).map
    AnnotationUse.sourceForm

/-- The view of a member shows what grafting copies of it. -/
structure ShowsFusion (settings : Settings) (c : ClassFile) (m : Member) (view : MemberView) :
    Prop where
  requested : settings.Requests c m → view.fuses = settings.copiedForms m
  ignored : ¬ settings.Requests c m → view.fuses = []

/-- The inspection of a class shows of each member what grafting copies of it. -/
def ShowsFusions (settings : Settings) (c : ClassFile) : Prop :=
  List.Forall₂ (settings.ShowsFusion c) c.members (settings.inspect c).members

/-! ## Requested members -/

theorem requests_iff : settings.Requests c m ↔ settings.isTransplant c = true
    ∧ m ∈ c.members ∧ m.attributes.annotations.contains settings.fuseMarker = true := by
  have hmembers : m ∈ settings.fuseMembers c ↔ m ∈ c.members
      ∧ m.attributes.annotations.contains settings.fuseMarker = true := List.mem_filter
  rw [← hmembers, Requests, isTransplant]
  constructor
  · rintro ⟨request, hrequest, hm⟩
    obtain ⟨hasked, hall, -⟩ := request_eq_ok_iff.1 hrequest
    rw [hasked]
    exact ⟨rfl, hall ▸ hm⟩
  · rintro ⟨htransplant, hm⟩
    split at htransplant
    · next name hname =>
      have hrequest : settings.request c
          = .ok ⟨name, settings.fuseMembers c, settings.fusesClass c⟩ :=
        request_eq_ok_iff.2 ⟨hname, rfl, rfl⟩
      exact ⟨_, hrequest, hm⟩
    · cases htransplant

/-- An inspection shows fusion where a requested member has the identity of the member shown. -/
theorem isFuseRequested_iff : settings.isFuseRequested c m = true ↔
    ∃ requested, settings.Requests c requested ∧ requested.id = m.id := by
  rw [isFuseRequested, Bool.and_eq_true, List.any_eq_true]
  simp only [requests_iff, fuseMembers, List.mem_filter, decide_eq_true_eq]
  constructor
  · rintro ⟨htransplant, requested, hmarked, hid⟩
    exact ⟨requested, ⟨htransplant, hmarked⟩, hid⟩
  · rintro ⟨requested, ⟨htransplant, hmarked⟩, hid⟩
    exact ⟨htransplant, requested, hmarked, hid⟩

theorem fuses_viewMember (settings : Settings) (c : ClassFile) (m : Member) :
    (settings.viewMember c m).fuses
      = if settings.isFuseRequested c m then settings.copiedForms m else [] := rfl

/-- Of a member without the fuse marker every annotation would be copied. -/
theorem copiedForms_eq_nil_iff
    (h : m.attributes.annotations.contains settings.fuseMarker = false) :
    settings.copiedForms m = [] ↔ m.attributes.annotations.entries = [] := by
  have hunmarked : ∀ a ∈ m.attributes.annotations.entries, a.kind ≠ settings.fuseMarker := by
    intro a ha hkind
    have hmarked := AnnotationSet.contains_eq_true_iff.2 (List.mem_map.2 ⟨a, ha, hkind⟩)
    rw [h] at hmarked
    cases hmarked
  rw [copiedForms, List.map_eq_nil_iff, List.filter_eq_self.2 (by simpa using hunmarked)]

/-- The view of a member is right unless its identity makes it look like a requested one. -/
theorem showsFusion_viewMember_iff (hm : m ∈ c.members) :
    settings.ShowsFusion c m (settings.viewMember c m) ↔
      ((∃ requested, settings.Requests c requested ∧ requested.id = m.id) →
        ¬ settings.Requests c m → m.attributes.annotations.entries = []) := by
  rw [← isFuseRequested_iff]
  constructor
  · rintro ⟨-, hignored⟩ hshown hnot
    have hforms := hignored hnot
    rw [fuses_viewMember, if_pos hshown] at hforms
    refine (copiedForms_eq_nil_iff (eq_false_of_ne_true fun hmarked => hnot ?_)).1 hforms
    obtain ⟨requested, hrequested, -⟩ := isFuseRequested_iff.1 hshown
    exact requests_iff.2 ⟨(requests_iff.1 hrequested).1, hm, hmarked⟩
  · intro hempty
    refine ⟨fun hrequested => ?_, fun hnot => ?_⟩
    · rw [fuses_viewMember, if_pos (isFuseRequested_iff.2 ⟨m, hrequested, rfl⟩)]
    · rw [fuses_viewMember]
      split
      · next hshown => rw [copiedForms, hempty hshown hnot]; rfl
      · rfl

/-! ## The inspection of a class -/

/-- An inspection shows of each member what grafting copies of it, if the members that share an
identity with a requested one are requested themselves or have no annotations, and only then. -/
theorem showsFusions_iff_of_identities : settings.ShowsFusions c ↔
    ∀ m ∈ c.members, ∀ requested, settings.Requests c requested → requested.id = m.id →
      ¬ settings.Requests c m → m.attributes.annotations.entries = [] := by
  rw [ShowsFusions, inspect, List.forall₂_map_right_iff, List.forall₂_same]
  refine forall₂_congr fun m hm => ?_
  rw [showsFusion_viewMember_iff hm]
  exact ⟨fun h requested hrequested hid => h ⟨requested, hrequested, hid⟩,
    fun h ⟨requested, hrequested, hid⟩ => h requested hrequested hid⟩

theorem showsFusions_of_nodup (hnodup : (c.members.map (·.id)).Nodup) :
    settings.ShowsFusions c := by
  refine showsFusions_iff_of_identities.2 fun m hm requested hrequested hid hnot => ?_
  have hsame : requested = m :=
    List.inj_on_of_nodup_map hnodup (requests_iff.1 hrequested).2.1 hm hid
  exact absurd (hsame ▸ hrequested) hnot

/-- An inspection shows with each member what is copied where a requested member has its identity.
This is what grafting copies of the members if and only if those that share an identity with a
requested one are requested themselves or have no annotations, and so whenever no two members have
one identity. -/
theorem showsFusions_iff (settings : Settings) (c : ClassFile) :
    List.Forall₂ (fun m view =>
          ((∃ requested, settings.Requests c requested ∧ requested.id = m.id) →
            view.fuses = settings.copiedForms m)
          ∧ ((¬ ∃ requested, settings.Requests c requested ∧ requested.id = m.id) →
            view.fuses = []))
        c.members (settings.inspect c).members
      ∧ (settings.ShowsFusions c ↔ ∀ m ∈ c.members, ∀ requested, settings.Requests c requested →
        requested.id = m.id → ¬ settings.Requests c m → m.attributes.annotations.entries = [])
      ∧ ((c.members.map (·.id)).Nodup → settings.ShowsFusions c) := by
  refine ⟨?_, showsFusions_iff_of_identities, showsFusions_of_nodup⟩
  rw [inspect, List.forall₂_map_right_iff, List.forall₂_same]
  intro m hm
  rw [fuses_viewMember, ← isFuseRequested_iff]
  exact ⟨fun hshown => if_pos hshown, fun hnot => if_neg hnot⟩

/-- A donor for the class `R` with two fields `x`.  The first carries the fuse marker and a visible
`LA;`, the second a visible `LA;` only. -/
def twinFields : Bytes :=
  [202, 254, 186, 190, 0, 0, 0, 52, 0, 12, 1, 0, 1, 84, 7, 0, 1, 1, 0, 1, 120, 1, 0, 1, 73, 1, 0,
    25, 82, 117, 110, 116, 105, 109, 101, 86, 105, 115, 105, 98, 108, 101, 65, 110, 110, 111, 116,
    97, 116, 105, 111, 110, 115, 1, 0, 3, 76, 70, 59, 1, 0, 3, 76, 65, 59, 1, 0, 1, 118, 3, 0, 0,
    0, 1, 1, 0, 3, 76, 82, 59, 1, 0, 5, 118, 97, 108, 117, 101, 0, 33, 0, 2, 0, 0, 0, 0, 0, 2, 0,
    0, 0, 3, 0, 4, 0, 1, 0, 5, 0, 0, 0, 15, 0, 2, 0, 6, 0, 0, 0, 7, 0, 1, 0, 8, 73, 0, 9, 0, 0, 0,
    3, 0, 4, 0, 1, 0, 5, 0, 0, 0, 6, 0, 1, 0, 7, 0, 0, 0, 0, 0, 1, 0, 5, 0, 0, 0, 11, 0, 1, 0, 10,
    0, 1, 0, 11, 99, 0, 10]

/-- The second field of this donor is not requested, but has the identity of one that is. -/
theorem exists_decode_twinFields : ∃ c, ClassFile.decode twinFields = .ok c
    ∧ ∃ twin ∈ c.members, ∃ marked, shortMarkers.Requests c marked ∧ marked.id = twin.id
      ∧ ¬ shortMarkers.Requests c twin ∧ twin.attributes.annotations.entries ≠ [] := by
  have hread : (ClassFile.decode twinFields).map (fun c =>
      (shortMarkers.isTransplant c, c.members.map fun m =>
        (m.id, m.attributes.annotations.contains shortMarkers.fuseMarker,
          m.attributes.annotations.isEmpty)))
      = .ok (true, [(⟨.field, "x", "I"⟩, true, false), (⟨.field, "x", "I"⟩, false, false)]) := by
    decide +kernel
  cases hdecode : ClassFile.decode twinFields with
  | error e => rw [hdecode] at hread; cases hread
  | ok c =>
    rw [hdecode] at hread
    obtain ⟨htransplant, hmembers⟩ := Prod.mk.inj (Except.ok.inj hread)
    obtain ⟨marked, rest, hc, hmarked, hrest⟩ := List.map_eq_cons_iff.1 hmembers
    obtain ⟨twin, last, rfl, htwin, hlast⟩ := List.map_eq_cons_iff.1 hrest
    obtain rfl := List.map_eq_nil_iff.1 hlast
    simp only [Prod.mk.injEq] at hmarked htwin
    have hmem : marked ∈ c.members ∧ twin ∈ c.members := by simp [hc]
    refine ⟨c, rfl, twin, hmem.2, marked, requests_iff.2 ⟨htransplant, hmem.1, hmarked.2.1⟩,
      hmarked.1.trans htwin.1.symm, ?_, ?_⟩
    · intro hrequested
      have hcontains := (requests_iff.1 hrequested).2.2
      rw [htwin.2.1] at hcontains
      cases hcontains
    · intro hempty
      have hany := htwin.2.2
      rw [AnnotationSet.isEmpty, hempty] at hany
      cases hany

/-- The inspection of a donor with one field shows what is copied, and that of the donor with two
fields of one identity does not. -/
theorem showsFusions_markedField_twinFields :
    (∃ c, ClassFile.decode markedField = .ok c ∧ shortMarkers.ShowsFusions c)
      ∧ ∃ c, ClassFile.decode twinFields = .ok c ∧ ¬ shortMarkers.ShowsFusions c := by
  obtain ⟨donor, -, hdonor, -, -⟩ := outcome_graft_eq_encoded_iff.1 graft_plainField
  have hone : (ClassFile.decode markedField).map (fun c => c.members.map (·.id))
      = .ok [⟨.field, "x", "I"⟩] := by decide +kernel
  rw [hdonor] at hone
  have hids : donor.members.map (·.id) = [⟨.field, "x", "I"⟩] := Except.ok.inj hone
  obtain ⟨c, hdecode, twin, htwin, marked, hrequested, hid, hnot, hannotated⟩ :=
    exists_decode_twinFields
  obtain ⟨-, -, hdistinct⟩ := showsFusions_iff shortMarkers donor
  obtain ⟨-, hshows, -⟩ := showsFusions_iff shortMarkers c
  refine ⟨⟨donor, hdonor, hdistinct (hids ▸ List.nodup_singleton _)⟩, c, hdecode, fun h => ?_⟩
  exact hannotated (hshows.1 h twin htwin marked hrequested hid hnot)

/-- The second field of the donor is shown with an annotation that grafting does not copy. -/
theorem not_forall_showsFusions :
    ¬ ∀ (settings : Settings) (bytes : Bytes) (c : ClassFile), ClassFile.decode bytes = .ok c →
      settings.ShowsFusions c := by
  intro h
  obtain ⟨c, hdecode, twin, htwin, marked, hrequested, hid, hnot, hannotated⟩ :=
    exists_decode_twinFields
  have hshows := showsFusions_iff_of_identities.1 (h shortMarkers twinFields c hdecode)
  exact hannotated (hshows twin htwin marked hrequested hid hnot)

end Settings

end AnnotationGraft
