import AnnotationGraft.Proofs.Graft.Parallel

/-!
# Grafts that build on each other

Donors that are grafted one after another leave `IsGraftOfAll`: of every kind, the annotation that
the last donor gives that gives one, or else the one that was there.  One graft more is the step
(`IsGraftOfAll.concat`).

In a batch, the donors with one recipient are grafted in this way, whatever becomes of the donors
between them: `exists_of_loadAfter` is the induction over the batch, and `runBatch_isGraftOfAll` the
result.
-/

namespace AnnotationGraft

theorem forall₂_comp {α β γ : Type} {R : α → β → Prop} {S : β → γ → Prop} {T : α → γ → Prop}
    (h : ∀ a b c, R a b → S b c → T a c) {as : List α} {bs : List β} {cs : List γ}
    (hR : List.Forall₂ R as bs) (hS : List.Forall₂ S bs cs) : List.Forall₂ T as cs := by
  induction hR generalizing cs with
  | nil =>
    cases hS
    exact .nil
  | cons hab _ ih =>
    cases hS with
    | cons hbc hrest => exact .cons (h _ _ _ hab hbc) (ih hrest)

namespace Settings

variable {settings : Settings} {given : List ClassFile} {before between after : ClassFile}

/-! ## Grafts of many donors -/

/-- What donors leave of a member that are grafted one after another. -/
structure IsMemberGraftOfAll (settings : Settings) (given : List ClassFile)
    (before after : Member) : Prop where
  id : after.id = before.id
  accessFlags : after.accessFlags = before.accessFlags
  verbatim : after.attributes.verbatim = before.attributes.verbatim
  annotations : ∀ kind, after.attributes.annotations.get? kind =
    (lastSome (fun donor => settings.donated donor before.id kind) given).or
      (before.attributes.annotations.get? kind)

/-- What donors leave of a recipient that are grafted one after another: its annotations are those
that the last of them gives that gives any of the kind, and otherwise those that it had. -/
structure IsGraftOfAll (settings : Settings) (given : List ClassFile) (before after : ClassFile) :
    Prop where
  version : after.version = before.version
  pool : after.pool.Extends before.pool
  accessFlags : after.accessFlags = before.accessFlags
  name : after.name = before.name
  superName : after.superName = before.superName
  interfaces : after.interfaces = before.interfaces
  members : List.Forall₂ (settings.IsMemberGraftOfAll given) before.members after.members
  verbatim : after.attributes.verbatim = before.attributes.verbatim
  annotations : ∀ kind, after.annotations.get? kind =
    (lastSome (fun donor => settings.donatedToClass donor kind) given).or
      (before.annotations.get? kind)

/-- Without donors, a recipient stays as it is. -/
theorem IsGraftOfAll.nil (settings : Settings) (c : ClassFile) :
    settings.IsGraftOfAll [] c c where
  version := rfl
  pool := .refl c.pool
  accessFlags := rfl
  name := rfl
  superName := rfl
  interfaces := rfl
  members := List.forall₂_same.2 fun _ _ => ⟨rfl, rfl, rfl, fun _ => rfl⟩
  verbatim := rfl
  annotations _ := rfl

theorem IsMemberGraftOfAll.concat {before between after : Member} {donor : ClassFile}
    (h : settings.IsMemberGraftOfAll given before between)
    (hgraft : settings.IsMemberGraftOf donor between after) :
    settings.IsMemberGraftOfAll (given ++ [donor]) before after where
  id := hgraft.id.trans h.id
  accessFlags := hgraft.accessFlags.trans h.accessFlags
  verbatim := hgraft.verbatim.trans h.verbatim
  annotations kind := by
    rw [hgraft.annotations, h.annotations, h.id, lastSome_concat, Option.or_assoc]

/-- A graft onto what donors have left is one donor more. -/
theorem IsGraftOfAll.concat {donor : ClassFile} (h : settings.IsGraftOfAll given before between)
    (hgraft : settings.IsGraftOf donor between after) :
    settings.IsGraftOfAll (given ++ [donor]) before after where
  version := hgraft.version.trans h.version
  pool := hgraft.pool.trans h.pool
  accessFlags := hgraft.accessFlags.trans h.accessFlags
  name := hgraft.name.trans h.name
  superName := hgraft.superName.trans h.superName
  interfaces := hgraft.interfaces.trans h.interfaces
  members := forall₂_comp (fun _ _ _ hm hm' => hm.concat hm') h.members hgraft.members
  verbatim := hgraft.verbatim.trans h.verbatim
  annotations kind := by
    rw [hgraft.annotations, h.annotations, lastSome_concat, Option.or_assoc]

/-- A class has an annotation of every kind that a donor gives. -/
structure HasKindsOf (settings : Settings) (donor c : ClassFile) : Prop where
  members : ∀ m ∈ c.members, ∀ kind, (settings.donated donor m.id kind).isSome →
    (m.attributes.annotations.get? kind).isSome
  annotations : ∀ kind, (settings.donatedToClass donor kind).isSome →
    (c.annotations.get? kind).isSome

/-- What a donor gives is replaced by a later donor or stays, but does not disappear. -/
theorem IsGraftOfAll.hasKindsOf (h : settings.IsGraftOfAll given before after) {donor : ClassFile}
    (hdonor : donor ∈ given) : settings.HasKindsOf donor after where
  members m hm kind hkind := by
    obtain ⟨i, hi, rfl⟩ := List.mem_iff_getElem.1 hm
    have hlt := h.members.length_eq ▸ hi
    have hmember := h.members.get hlt hi
    simp only [List.get_eq_getElem] at hmember
    rw [hmember.id] at hkind
    rw [hmember.annotations, Option.isSome_or, isSome_lastSome hdonor hkind, Bool.true_or]
  annotations kind hkind := by
    rw [h.annotations, Option.isSome_or, isSome_lastSome hdonor hkind, Bool.true_or]

end Settings

/-! ## Donors of a batch -/

/-- The donors whose attempts have written a recipient. -/
def graftedOnto (name : ClassName) (donors : List Donor) (reports : List AttemptReport) :
    List Donor :=
  ((donors.zip reports).filter fun run => (run.2.writtenOf? name).isSome).map (·.1)

theorem graftedOnto_concat {name : ClassName} {donors : List Donor}
    {reports : List AttemptReport} (h : donors.length = reports.length) (donor : Donor)
    (report : AttemptReport) :
    graftedOnto name (donors ++ [donor]) (reports ++ [report]) = graftedOnto name donors reports
      ++ if (report.writtenOf? name).isSome then [donor] else [] := by
  rw [graftedOnto, List.zip_append h, List.filter_append, List.map_append, List.zip_cons_cons,
    List.zip_nil_left, List.filter_singleton]
  cases (report.writtenOf? name).isSome <;> rfl

namespace Settings

variable {settings : Settings} {source : ClassName → Loaded} {donors : List Donor}
  {name : ClassName} {report : AttemptReport} {bytes : Bytes}

/-- What an attempt writes of a recipient is a graft of what it has loaded. -/
theorem exists_of_writtenOf?_attempt (hverify : settings.verifyOutput = true) {label : String}
    {donorBytes : Bytes} {load : ClassName → Loaded}
    (h : (settings.attempt label donorBytes load).writtenOf? name = some bytes) :
    ∃ donor recipientBytes recipient output, ClassFile.decode donorBytes = .ok donor
      ∧ load name = .ok recipientBytes ∧ ClassFile.decode recipientBytes = .ok recipient
      ∧ ClassFile.decode bytes = .ok output ∧ settings.IsGraftOf donor recipient output := by
  obtain ⟨fusion, houtcome⟩ := AttemptReport.writtenOf?_eq_some_iff.1 h
  obtain ⟨donor, recipientBytes, recipient, hdonor, hload, hrecipient, hgrafts⟩ :=
    outcome_attempt_eq_encoded_iff.1 houtcome
  obtain ⟨output, houtput, hgraft, -⟩ := hgrafts.exists_decode hverify
    (ClassFile.isWellFormed_of_decode hdonor).1 (ClassFile.isWellFormed_of_decode hrecipient).1
  exact ⟨donor, recipientBytes, recipient, output, hdonor, hload, hrecipient, houtput, hgraft⟩

/-- What a chain would load of a recipient next is what its source gives, with all donors grafted
onto it that have written it so far. -/
theorem exists_of_loadAfter (hverify : settings.verifyOutput = true) (donors : List Donor)
    {after : ClassFile} (hload : loadAfter (settings.chain source donors) source name = .ok bytes)
    (hafter : ClassFile.decode bytes = .ok after) :
    ∃ sourceBytes before given, source name = .ok sourceBytes
      ∧ ClassFile.decode sourceBytes = .ok before
      ∧ List.Forall₂ (fun donor c => ClassFile.decode donor.bytes = .ok c)
        (graftedOnto name donors (settings.chain source donors)) given
      ∧ settings.IsGraftOfAll given before after := by
  -- Every step loads what the donors before have left, so the last donor is taken off.
  induction donors using List.reverseRecOn generalizing bytes after with
  | nil => exact ⟨bytes, after, [], hload, hafter, .nil, .nil settings after⟩
  | append_singleton donors donor ih =>
    rw [chain_concat, loadAfter_concat] at hload
    rw [chain_concat, graftedOnto_concat (length_chain settings source donors).symm]
    cases hwritten : (settings.attempt donor.label donor.bytes
        (loadAfter (settings.chain source donors) source)).writtenOf? name with
    | none =>
      rw [hwritten] at hload
      obtain ⟨sourceBytes, before, given, hsource, hbefore, hgiven, hgraft⟩ := ih hload hafter
      refine ⟨sourceBytes, before, given, hsource, hbefore, ?_, hgraft⟩
      rw [Option.isSome_none, if_neg Bool.false_ne_true, List.append_nil]
      exact hgiven
    | some written =>
      rw [hwritten] at hload
      cases hload
      obtain ⟨donorClass, recipientBytes, between, output, hdonor, hrecipient, hbetween, houtput,
        hlast⟩ := exists_of_writtenOf?_attempt hverify hwritten
      cases hafter.symm.trans houtput
      obtain ⟨sourceBytes, before, given, hsource, hbefore, hgiven, hgraft⟩ :=
        ih hrecipient hbetween
      refine ⟨sourceBytes, before, given ++ [donorClass], hsource, hbefore, ?_, hgraft.concat hlast⟩
      rw [Option.isSome_some, if_pos rfl]
      exact List.rel_append hgiven (.cons hdonor .nil)

/-- What a batch has written last of a recipient is what its source gives, with all donors grafted
onto it, in order, whose attempts on it succeeded.  No annotation that one of them gives is lost. -/
theorem runBatch_isGraftOfAll (hverify : settings.verifyOutput = true)
    (hreport : report ∈ settings.runBatch source donors) {fusion : FusionReport}
    (houtcome : report.outcome = .encoded name bytes fusion) :
    ∃ lastBytes sourceBytes before after given,
      lastWritten (settings.runBatch source donors) name = some lastBytes
      ∧ source name = .ok sourceBytes
      ∧ ClassFile.decode sourceBytes = .ok before ∧ ClassFile.decode lastBytes = .ok after
      ∧ List.Forall₂ (fun donor c => ClassFile.decode donor.bytes = .ok c)
        (graftedOnto name donors (settings.runBatch source donors)) given
      ∧ settings.IsGraftOfAll given before after
      ∧ ∀ donor ∈ given, settings.HasKindsOf donor after := by
  rw [runBatch_eq_chain] at hreport ⊢
  have hwritten := AttemptReport.writtenOf?_eq_some_iff.2 ⟨fusion, houtcome⟩
  have hsome : (lastWritten (settings.chain source donors) name).isSome :=
    isSome_lastSome hreport (Option.isSome_iff_exists.2 ⟨bytes, hwritten⟩)
  obtain ⟨lastBytes, hlast⟩ := Option.isSome_iff_exists.1 hsome
  -- The last bytes can be read, since their attempt has verified them.
  obtain ⟨lastReport, hlastReport, hlastWritten⟩ := exists_mem_of_lastSome hlast
  obtain ⟨i, hi⟩ := List.mem_iff_getElem?.1 hlastReport
  obtain ⟨lastDonor, load, -, rfl⟩ := exists_attempt_of_chain hi
  obtain ⟨-, -, -, after, -, -, -, hafter, -⟩ := exists_of_writtenOf?_attempt hverify hlastWritten
  have hload : loadAfter (settings.chain source donors) source name = .ok lastBytes := by
    rw [loadAfter, hlast]
  obtain ⟨sourceBytes, before, given, hsource, hbefore, hgiven, hgraft⟩ :=
    exists_of_loadAfter hverify donors hload hafter
  exact ⟨lastBytes, sourceBytes, before, after, given, hlast, hsource, hbefore, hafter, hgiven,
    hgraft, fun donor hdonor => hgraft.hasKindsOf hdonor⟩

/-- Both donors of the shared recipient are grafted onto it. -/
theorem runBatch_sharedRecipient_isGraftOfAll :
    ∃ before after first second lastBytes, ClassFile.decode plainField = .ok before
      ∧ lastWritten (shortMarkers.runBatch twoClasses sharedRecipient) ⟨"R"⟩ = some lastBytes
      ∧ ClassFile.decode lastBytes = .ok after
      ∧ ClassFile.decode markedField = .ok first ∧ ClassFile.decode markedClass = .ok second
      ∧ shortMarkers.IsGraftOfAll [first, second] before after
      ∧ shortMarkers.HasKindsOf first after ∧ shortMarkers.HasKindsOf second after := by
  have hgrafted : graftedOnto ⟨"R"⟩ sharedRecipient
      (shortMarkers.runBatch twoClasses sharedRecipient)
        = [⟨"first", markedField⟩, ⟨"second", markedClass⟩] := by
    rw [runBatch_eq_chain]
    decide +kernel
  obtain ⟨report, hreport, houtcome⟩ : ∃ report,
      report ∈ shortMarkers.runBatch twoClasses sharedRecipient
        ∧ report.outcome = .encoded ⟨"R"⟩ graftedField
          ⟨[], [⟨.member ⟨.field, "x", "I"⟩, "LA;"⟩], []⟩ := by
    rw [runBatch_eq_chain]
    exact ⟨_, List.mem_cons_self, by decide +kernel⟩
  obtain ⟨lastBytes, sourceBytes, before, after, given, hlast, hsource, hbefore, hafter, hgiven,
    hgraft, hkinds⟩ := runBatch_isGraftOfAll rfl hreport houtcome
  rw [hgrafted] at hgiven
  obtain _ | ⟨hfirst, _ | ⟨hsecond, _ | _⟩⟩ := hgiven
  obtain rfl : plainField = sourceBytes := Except.ok.inj hsource
  exact ⟨before, after, _, _, lastBytes, hbefore, hlast, hafter, hfirst, hsecond, hgraft,
    hkinds _ (by simp), hkinds _ (by simp)⟩

end Settings

end AnnotationGraft
